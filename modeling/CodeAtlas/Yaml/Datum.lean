/-
What a scalar stands for. A plain scalar without a tag of its own is null, a boolean, an
integer, a decimal number or else a text, decided by its spelling alone; quoted scalars are
texts. Digits with a leading zero are a text.
-/
import CodeAtlas.Yaml.Scalar
import CodeAtlas.Number.Binary64

namespace CodeAtlas.Yaml

open CodeAtlas.Number

/-- What a scalar stands for. -/
inductive Datum where
  | null
  | boolean (value : Bool)
  | integer (value : Int)
  | number (value : Binary64)
  | text (value : List Char)
deriving DecidableEq, Repr

namespace Datum

/-! ### Spellings -/

/-- The spellings of null, the empty one apart. -/
def isNull (text : List Char) : Bool :=
  ["~", "null", "Null", "NULL"].contains (String.ofList text)

/-- The spellings of booleans. -/
def boolean? (text : List Char) : Option Bool :=
  if ["true", "True", "TRUE"].contains (String.ofList text) then some true
  else if ["false", "False", "FALSE"].contains (String.ofList text) then some false
  else none

/-- The number that digits of a base write, most significant first. Nothing is no number. -/
def digits? (base : Nat) (text : List Char) : Option Nat :=
  if text.isEmpty then none
  else
    text.foldlM
      (fun total char =>
        match hexValue? char with
        | some value => if value < base then some (total * base + value) else none
        | none => none)
      0

/-- The base that the start of a number shows, and the digits behind it. -/
def baseOf : List Char → Option (Nat × List Char)
  | '0' :: 'x' :: rest => some (16, rest)
  | '0' :: 'o' :: rest => some (8, rest)
  | '0' :: 'b' :: rest => some (2, rest)
  | _ => none

/-- Digits in base ten or with the start that shows another base, below a limit. -/
def magnitude? (limit : Nat) (text : List Char) : Option Nat :=
  let value :=
    match baseOf text with
    | some (base, rest) => digits? base rest
    | none => digits? 10 text
  value.filter (· < limit)

/-- Whether a text is digits with a leading zero, so no number. -/
def isZeroLed (text : List Char) : Bool :=
  let digits :=
    match text with
    | '-' :: rest | '+' :: rest => rest
    | rest => rest
  match digits with
  | '0' :: rest => !rest.isEmpty && rest.all isDigit
  | _ => false

/-- A number without a minus sign, below a limit. -/
def unsigned? (limit : Nat) (text : List Char) : Option Nat :=
  if isZeroLed text then none
  else
    match text with
    | '+' :: rest => magnitude? limit rest
    | rest => magnitude? limit rest

/-- A number with a minus sign, not beyond a limit. -/
def negative? (limit : Nat) : List Char → Option Int
  | '-' :: rest =>
    if isZeroLed rest then none else (magnitude? (limit + 1) rest).map fun value => -(value : Int)
  | _ => none

/-- An integer of at most 128 bits. -/
def integer? (text : List Char) : Option Int :=
  match unsigned? (Nat.pow 2 128) text with
  | some value => some value
  | none => negative? (Nat.pow 2 127) text

/-! ### Decimal numbers -/

/-- A decimal number without a sign: digits, of which some may stand behind a point, and a
power of ten. -/
def decimal? (negative : Bool) (text : List Char) : Option Binary64 :=
  let whole := text.takeWhile isDigit
  let rest := text.drop whole.length
  let (places, rest) :=
    match rest with
    | '.' :: behind => (behind.takeWhile isDigit, behind.dropWhile isDigit)
    | _ => ([], rest)
  match digits? 10 (whole ++ places) with
  | none => none
  | some digits =>
    let result (power : Int) := some (Binary64.ofDecimal negative digits (power - places.length))
    match rest with
    | [] => result 0
    | mark :: power =>
      if mark != 'e' && mark != 'E' then none
      else
        match power with
        | '-' :: power => (digits? 10 power).bind fun power => result (-(power : Int))
        | '+' :: power => (digits? 10 power).bind fun power => result power
        | power => (digits? 10 power).bind fun power => result power

/-- A decimal number with a sign, an infinity or the undefined number. A decimal number that
is too large is none. -/
def number? (text : List Char) : Option Binary64 :=
  let isInfinite (text : List Char) : Bool :=
    [".inf", ".Inf", ".INF"].contains (String.ofList text)
  if [".nan", ".NaN", ".NAN"].contains (String.ofList text) then some .nan
  else
    let (negative, body) :=
      match text with
      | '+' :: rest => (false, rest)
      | '-' :: rest => (true, rest)
      | rest => (false, rest)
    if isInfinite body then some (.infinite negative)
    else (decimal? negative body).filter Binary64.isFinite

/-! ### Scalars -/

/-- What a plain scalar without a tag stands for. -/
def ofPlain (text : List Char) : Datum :=
  if text.isEmpty || isNull text then .null
  else
    match boolean? text with
    | some value => .boolean value
    | none =>
      match integer? text with
      | some value => .integer value
      | none =>
        match if isZeroLed text then none else number? text with
        | some value => .number value
        | none => .text text

/-- The tags that say what a scalar stands for. -/
inductive Kind where
  | null
  | boolean
  | integer
  | number
deriving DecidableEq, Repr

/-- The name of what a tag asks for. -/
def Kind.describe : Kind → String
  | .null => "null"
  | .boolean => "a boolean"
  | .integer => "an integer"
  | .number => "a float"

/-- What a tag asks for. -/
def Kind.ofTag? (tag : List Char) : Option Kind :=
  match String.ofList tag with
  | "tag:yaml.org,2002:null" => some .null
  | "tag:yaml.org,2002:bool" => some .boolean
  | "tag:yaml.org,2002:int" => some .integer
  | "tag:yaml.org,2002:float" => some .number
  | _ => none

/-- A text as what a tag asks for. -/
def Kind.read? (kind : Kind) (text : List Char) : Option Datum :=
  match kind with
  | .null => if isNull text then some .null else none
  | .boolean => (boolean? text).map .boolean
  | .integer => (integer? text).map .integer
  | .number => (number? text).map .number

/-- What a scalar stands for, or what its tag asks for in vain. A tag of the document's own
leaves a plain scalar to its spelling. -/
def ofScalar (tag : Option (List Char)) (text : List Char) (style : Style) :
    Except Kind Datum :=
  match tag with
  | none => .ok (if style = .plain then ofPlain text else .text text)
  | some tag =>
    match Kind.ofTag? tag with
    | some kind =>
      match kind.read? text with
      | some datum => .ok datum
      | none => .error kind
    | none =>
      .ok (if tag.head? = some '!' && style = .plain then ofPlain text else .text text)

end Datum

end CodeAtlas.Yaml
