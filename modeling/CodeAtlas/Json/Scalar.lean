/-
The pieces of JSON that hold no others: words, strings and numbers. A reader takes what it
wants from the front of the input and gives back the rest.

Numbers are whole if they are written so and fit into 64 bits. All others are binary64: the
first digits that fit into 64 bits, times a power of ten, with one rounding for each.
-/
import CodeAtlas.Json.Fault

namespace CodeAtlas.Json

open CodeAtlas.Number

/-- What is left to read. -/
abbrev Input := List Char

/-- Takes a value from the front of the input. -/
abbrev Reader (α : Type) := Input → Except Fault (α × Input)

/-- The blanks that may stand between any two pieces. -/
def isBlank (char : Char) : Bool := char == ' ' || char == '\n' || char == '\t' || char == '\r'

/-- The input without the blanks in front. -/
def skipBlanks (input : Input) : Input := input.dropWhile isBlank

/-! ### Words -/

/-- Takes the rest of a word. -/
def takeWord : List Char → Input → Except Fault Input
  | [], input => .ok input
  | _ :: _, [] => .error (.ended .value)
  | wanted :: word, char :: rest =>
    if char = wanted then takeWord word rest else .error (.malformed .badWord)

/-! ### Strings -/

/-- The value of a hexadecimal digit. -/
def hexValue? (char : Char) : Option Nat :=
  if '0' ≤ char && char ≤ '9' then some (char.toNat - '0'.toNat)
  else if 'a' ≤ char && char ≤ 'f' then some (char.toNat - 'a'.toNat + 10)
  else if 'A' ≤ char && char ≤ 'F' then some (char.toNat - 'A'.toNat + 10)
  else none

/-- The value of the four hexadecimal digits in front. Fewer than four bytes are too few. -/
def takeHex (input : Input) : Except Fault Nat :=
  let front := input.take 4
  if front.foldl (fun total char => total + char.utf8Size) 0 < 4 then .error (.ended .string)
  else
    match front.mapM hexValue? with
    | some digits => .ok (digits.foldl (fun total digit => total * 16 + digit) 0)
    | none => .error (.malformed .badEscape)

/-- The character that a letter behind a backslash stands for. -/
def escapeLetter? : Char → Option Char
  | '"' => some '"'
  | '\\' => some '\\'
  | '/' => some '/'
  | 'b' => some '\x08'
  | 'f' => some '\x0c'
  | 'n' => some '\n'
  | 'r' => some '\r'
  | 't' => some '\t'
  | _ => none

/-- Whether a code is the first half of a pair. -/
def isLeading (code : Nat) : Bool := 0xD800 ≤ code && code ≤ 0xDBFF

/-- Whether a code is the second half of a pair. -/
def isTrailing (code : Nat) : Bool := 0xDC00 ≤ code && code ≤ 0xDFFF

/-- The character behind `\u`, and how many characters of the input write it. A character
outside the first plane is written as a pair. -/
def takeCode (input : Input) : Except Fault (Char × Nat) := do
  let code ← takeHex input
  if isTrailing code then throw (.malformed .loneSurrogate)
  else if !isLeading code then return (Char.ofNat code, 4)
  else
    match input.drop 4 with
    | [] | ['\\'] => throw (.ended .string)
    | '\\' :: 'u' :: rest =>
      let second ← takeHex rest
      if isTrailing second then
        return (Char.ofNat ((code - 0xD800) * 1024 + (second - 0xDC00) + 0x10000), 10)
      else throw (.malformed .loneSurrogate)
    | _ => throw (.malformed .halfSurrogatePair)

/-- The character behind a backslash, and how many characters of the input write it. -/
def takeEscape (input : Input) : Except Fault (Char × Nat) :=
  match input with
  | [] => .error (.ended .string)
  | 'u' :: rest =>
    match takeCode rest with
    | .error fault => .error fault
    | .ok (char, count) => .ok (char, count + 1)
  | letter :: _ =>
    match escapeLetter? letter with
    | some char => .ok (char, 1)
    | none => .error (.malformed .badEscape)

/-- Takes a string behind its opening quote. -/
def takeString (input : Input) : Except Fault (List Char × Input) :=
  match input with
  | [] => .error (.ended .string)
  | '"' :: rest => .ok ([], rest)
  | '\\' :: rest =>
    match takeEscape rest with
    | .error fault => .error fault
    | .ok (char, count) =>
      match takeString (rest.drop count) with
      | .error fault => .error fault
      | .ok (text, rest) => .ok (char :: text, rest)
  | char :: rest =>
    if char.toNat < 0x20 then .error (.malformed .controlCharacter)
    else
      match takeString rest with
      | .error fault => .error fault
      | .ok (text, rest) => .ok (char :: text, rest)
termination_by input.length
decreasing_by all_goals simp only [List.length_cons, List.length_drop]; omega

/-- Passes over a string behind its opening quote. Codes of pairs are not checked. -/
def skipString (input : Input) : Except Fault Input :=
  match input with
  | [] => .error (.ended .string)
  | '"' :: rest => .ok rest
  | '\\' :: [] => .error (.ended .string)
  | '\\' :: 'u' :: rest =>
    match takeHex rest with
    | .error fault => .error fault
    | .ok _ => skipString (rest.drop 4)
  | '\\' :: letter :: rest =>
    if (escapeLetter? letter).isSome then skipString rest else .error (.malformed .badEscape)
  | char :: rest =>
    if char.toNat < 0x20 then .error (.malformed .controlCharacter) else skipString rest
termination_by input.length
decreasing_by all_goals simp only [List.length_cons, List.length_drop]; omega

/-! ### Numbers -/

/-- A number. -/
inductive Numeral where
  /-- A whole number below 2^64. -/
  | natural (value : Nat)
  /-- The opposite of a whole number from 1 to 2^63. -/
  | opposite (value : Nat)
  | real (value : Binary64)
deriving DecidableEq, Repr

/-- What a number is in a message. -/
def Numeral.found : Numeral → Found
  | .natural value => .integer value
  | .opposite value => .integer (-(value : Int))
  | .real value => .number value

/-- A decimal digit. -/
def isDigit (char : Char) : Bool := '0' ≤ char && char ≤ '9'

/-- Whether a digit comes next. -/
def seesDigit (input : Input) : Bool := input.head?.any isDigit

/-- Whether the mark of a power of ten comes next. -/
def seesPower (input : Input) : Bool := input.head? == some 'e' || input.head? == some 'E'

/-- Adds digits to a significand as long as it stays below 2^64, and counts them. -/
def takeDigits (significand count : Nat) : Input → Nat × Nat × Input
  | [] => (significand, count, [])
  | char :: rest =>
    let next := significand * 10 + (char.toNat - '0'.toNat)
    if isDigit char ∧ next < UInt64.size then takeDigits next (count + 1) rest
    else (significand, count, char :: rest)

/-- Digits that are passed over. -/
def skipDigits (input : Input) : Input := input.dropWhile isDigit

/-- The product of a number with a power of ten. Powers beyond 10^308 are no numbers of the
format: a product with one is out of range, and a quotient is taken in steps, of which the
third leaves nothing. -/
def scale : Nat → Binary64 → Int → Except Fault Binary64
  | 0, value, _ => .ok value
  | fuel + 1, value, exponent =>
    let power := Binary64.ofNat (Nat.pow 10 (min exponent.natAbs 308))
    if exponent.natAbs ≤ 308 then
      if 0 ≤ exponent then
        let product := value.mul power
        if product.isFinite then .ok product else .error (.malformed .numberOutOfRange)
      else .ok (value.div power)
    else if value.isZero then .ok value
    else if 0 ≤ exponent then .error (.malformed .numberOutOfRange)
    else scale fuel (value.div power) (exponent + 308)

/-- A number from its parts. -/
def ofParts (negative : Bool) (significand : Nat) (exponent : Int) : Except Fault Binary64 :=
  match scale 8 (Binary64.ofNat significand) exponent with
  | .error fault => .error fault
  | .ok value => .ok (if negative then value.negate else value)

/-- Takes the power of ten behind its mark. -/
def takePower (negative : Bool) (significand : Nat) (exponent : Int) (input : Input) :
    Except Fault (Binary64 × Input) := do
  let (down, input) :=
    match input with
    | '+' :: rest => (false, rest)
    | '-' :: rest => (true, rest)
    | rest => (false, rest)
  match input with
  | [] => throw (.ended .value)
  | char :: rest =>
    if !isDigit char then throw (.malformed .badNumber)
    else
      let digits := (char :: rest).takeWhile isDigit
      let power := digits.foldl (fun total char => total * 10 + (char.toNat - '0'.toNat)) 0
      let rest := skipDigits rest
      if Nat.pow 2 31 ≤ power then
        if significand ≠ 0 ∧ !down then throw (.malformed .numberOutOfRange)
        else return (Binary64.zero negative, rest)
      else
        let shift : Int := if down then -(power : Int) else power
        return (← ofParts negative significand (exponent + shift), rest)

/-- Takes a power of ten if there is one. -/
def finishNumber (negative : Bool) (significand : Nat) (exponent : Int) (input : Input) :
    Except Fault (Binary64 × Input) := do
  if seesPower input then takePower negative significand exponent input.tail
  else return (← ofParts negative significand exponent, input)

/-- Takes the digits behind a point. Those that no longer fit are passed over. -/
def takePlaces (negative : Bool) (significand : Nat) (exponent : Int) (input : Input) :
    Except Fault (Binary64 × Input) :=
  let (significand, count, rest) := takeDigits significand 0 input
  if seesDigit rest then
    finishNumber negative significand (exponent - count) (skipDigits rest)
  else if count = 0 then
    .error (if rest.isEmpty then .ended .value else .malformed .badNumber)
  else finishNumber negative significand (exponent - count) rest

/-- Takes what follows the whole digits of a number that is not kept whole. -/
def takeReal (negative : Bool) (significand : Nat) (exponent : Int) (input : Input) :
    Except Fault (Binary64 × Input) :=
  match input with
  | '.' :: rest => takePlaces negative significand exponent rest
  | rest => finishNumber negative significand exponent rest

/-- Takes a number behind its sign. -/
def takeNumber (negative : Bool) (input : Input) : Except Fault (Numeral × Input) := do
  match input with
  | [] => throw (.ended .value)
  | first :: rest =>
    if !isDigit first then throw (.malformed .badNumber)
    else if first = '0' ∧ seesDigit rest then throw (.malformed .badNumber)
    else
      let (significand, _, rest) := takeDigits 0 0 (first :: rest)
      if seesDigit rest then
        let further := rest.takeWhile isDigit
        let (value, rest) ← takeReal negative significand further.length (skipDigits rest)
        return (.real value, rest)
      else if rest.head? = some '.' ∨ seesPower rest then
        let (value, rest) ← takeReal negative significand 0 rest
        return (.real value, rest)
      else if !negative then return (.natural significand, rest)
      else if 0 < significand ∧ significand ≤ Nat.pow 2 63 then return (.opposite significand, rest)
      else return (.real (Binary64.ofNat significand).negate, rest)

/-- Passes over a number behind its sign. -/
def skipNumber (input : Input) : Except Fault Input :=
  match input with
  | [] => .error (.malformed .badNumber)
  | first :: rest =>
    if !isDigit first ∨ (first = '0' ∧ seesDigit rest) then .error (.malformed .badNumber)
    else
      match skipDigits rest with
      | '.' :: places =>
        if !seesDigit places then .error (.malformed .badNumber)
        else
          let rest := skipDigits places
          if seesPower rest then skipPower rest.tail else .ok rest
      | rest => if seesPower rest then skipPower rest.tail else .ok rest
where
  /-- Passes over a power of ten behind its mark. -/
  skipPower (input : Input) : Except Fault Input :=
    let input :=
      match input with
      | '+' :: rest | '-' :: rest => rest
      | rest => rest
    if seesDigit input then .ok (skipDigits input) else .error (.malformed .badNumber)

end CodeAtlas.Json
