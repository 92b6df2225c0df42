/-
Reading JSON text as values of known forms: strings, numbers, lists, choices between names, and
records. A record is an object with one value for each of its fields, in any order and among
others that are passed over, or a list of the values in the order of the fields.
-/
import CodeAtlas.Json.Scalar

namespace CodeAtlas.Json

/-! ### Values that are passed over -/

/-- Passes over a value that holds no others. Lists and objects are left alone. -/
def skipScalar? (input : Input) : Except Fault (Option Input) :=
  match input with
  | [] => .error (.ended .value)
  | 'n' :: rest => (takeWord ['u', 'l', 'l'] rest).map some
  | 't' :: rest => (takeWord ['r', 'u', 'e'] rest).map some
  | 'f' :: rest => (takeWord ['a', 'l', 's', 'e'] rest).map some
  | '-' :: rest => (skipNumber rest).map some
  | '"' :: rest => (skipString rest).map some
  | '[' :: _ | '\x7b' :: _ => .ok none
  | char :: rest =>
    if isDigit char then (skipNumber (char :: rest)).map some
    else .error (.malformed .missingValue)

/-- What is open around a value that is passed over. -/
inductive Bracket where
  | list
  | object
deriving DecidableEq, Repr

namespace Bracket

/-- The character that closes a bracket. -/
def closing : Bracket → Char
  | .list => ']'
  | .object => '\x7d'

/-- The fault of a text that ends inside. -/
def ended : Bracket → Fault
  | .list => .ended .list
  | .object => .ended .object

/-- The fault of a missing comma inside. -/
def missingComma : Bracket → Fault
  | .list => .malformed .missingListComma
  | .object => .malformed .missingObjectComma

end Bracket

/-- Passes over a key and the colon behind it. -/
def skipKey (input : Input) : Except Fault Input := do
  match skipBlanks input with
  | [] => throw (.ended .object)
  | '"' :: rest =>
    match skipBlanks (← skipString rest) with
    | [] => throw (.ended .object)
    | ':' :: rest => return rest
    | _ => throw (.malformed .missingColon)
  | _ => throw (.malformed .keyNotString)

/-- Closes brackets behind a value, up to the next value or to the end of the outermost one.
Right behind an opening bracket there is no comma. -/
def skipClosing : Nat → Bool → List Bracket → Input → Except Fault (List Bracket × Input)
  | 0, _, brackets, input => .ok (brackets, input)
  | _, _, [], input => .ok ([], input)
  | fuel + 1, behindValue, bracket :: outer, input =>
    match skipBlanks input with
    | [] => .error bracket.ended
    | char :: rest =>
      if behindValue && char == ',' then .ok (bracket :: outer, rest)
      else if char == bracket.closing then skipClosing fuel true outer rest
      else if behindValue then .error bracket.missingComma
      else .ok (bracket :: outer, char :: rest)

/-- Passes over values until the brackets that are open are closed. -/
def skipValues : Nat → List Bracket → Input → Except Fault Input
  | 0, _, _ => .error (.ended .value)
  | fuel + 1, brackets, input => do
    let input := skipBlanks input
    let (brackets, input) ←
      match ← skipScalar? input with
      | some rest => skipClosing (fuel + 1) true brackets rest
      | none =>
        let bracket := if input.head? = some '[' then Bracket.list else Bracket.object
        skipClosing (fuel + 1) false (bracket :: brackets) input.tail
    match brackets with
    | [] => return input
    | .list :: _ => skipValues fuel brackets input
    | .object :: _ => skipValues fuel brackets (← skipKey input)

/-- Passes over one value. -/
def skipValue (input : Input) : Except Fault Input := skipValues (input.length + 1) [] input

/-! ### Scalars -/

/-- The fault of a value that is not what was wanted. The value is read as far as it is needed
to name it. -/
def unexpected (wanted : String) (input : Input) : Fault :=
  let mismatch (found : Found) : Fault := .unfit (.type found wanted)
  let orFault {α : Type} (found : α → Found) (result : Except Fault (α × Input)) : Fault :=
    match result with
    | .ok (value, _) => mismatch (found value)
    | .error fault => fault
  let orWord (found : Found) (result : Except Fault Input) : Fault :=
    match result with
    | .ok _ => mismatch found
    | .error fault => fault
  match input with
  | 'n' :: rest => orWord .null (takeWord ['u', 'l', 'l'] rest)
  | 't' :: rest => orWord (.boolean true) (takeWord ['r', 'u', 'e'] rest)
  | 'f' :: rest => orWord (.boolean false) (takeWord ['a', 'l', 's', 'e'] rest)
  | '-' :: rest => orFault Numeral.found (takeNumber true rest)
  | '"' :: rest => orFault Found.string (takeString rest)
  | '[' :: _ => mismatch .list
  | '\x7b' :: _ => mismatch .object
  | char :: rest =>
    if isDigit char then orFault Numeral.found (takeNumber false (char :: rest))
    else .malformed .missingValue
  | [] => .malformed .missingValue

/-- Takes a string. -/
def readString (wanted : String) : Reader (List Char) := fun input =>
  match skipBlanks input with
  | [] => .error (.ended .value)
  | '"' :: rest => takeString rest
  | other => .error (unexpected wanted other)

/-- Takes a text. -/
def readText : Reader String := fun input =>
  match readString "a string" input with
  | .error fault => .error fault
  | .ok (text, rest) => .ok (String.ofList text, rest)

/-- A number as a whole number below a limit. -/
def Numeral.fit (limit : Nat) (wanted : String) : Numeral → Except Fault Nat
  | .natural value =>
    if value < limit then .ok value else .error (.unfit (.value (.integer value) wanted))
  | .opposite value => .error (.unfit (.value (.integer (-(value : Int))) wanted))
  | .real value => .error (.unfit (.type (.number value) wanted))

/-- Takes a whole number below a limit. -/
def readNatural (limit : Nat) (wanted : String) : Reader Nat := fun input =>
  let fit (result : Except Fault (Numeral × Input)) : Except Fault (Nat × Input) :=
    match result with
    | .error fault => .error fault
    | .ok (number, rest) =>
      match number.fit limit wanted with
      | .error fault => .error fault
      | .ok value => .ok (value, rest)
  match skipBlanks input with
  | [] => .error (.ended .value)
  | '-' :: rest => fit (takeNumber true rest)
  | char :: rest =>
    if isDigit char then fit (takeNumber false (char :: rest))
    else .error (unexpected wanted (char :: rest))

/-- Takes a colon. -/
def takeColon (input : Input) : Except Fault Input :=
  match skipBlanks input with
  | [] => .error (.ended .object)
  | ':' :: rest => .ok rest
  | _ => .error (.malformed .missingColon)

/-- Takes null. -/
def takeNull (input : Input) : Except Fault Input :=
  match skipBlanks input with
  | [] => .error (.ended .value)
  | 'n' :: rest => takeWord ['u', 'l', 'l'] rest
  | other => .error (unexpected "unit" other)

/-- Takes one of some names: a string, or an object with the name as its only key and null as
the value. -/
def readChoice {α : Type} (choices : List String) (find? : String → Option α) : Reader α :=
  let choose (name : List Char) : Except Fault α :=
    match find? (String.ofList name) with
    | some value => .ok value
    | none => .error (.unfit (.unknownChoice name choices))
  fun input => do
    match skipBlanks input with
    | [] => throw (.ended .value)
    | '"' :: rest =>
      let (name, rest) ← takeString rest
      return (← choose name, rest)
    | '\x7b' :: rest =>
      let (name, rest) ← readString "variant identifier" rest
      let value ← choose name
      match skipBlanks (← takeNull (← takeColon rest)) with
      | [] => throw (.ended .object)
      | '\x7d' :: rest => return (value, rest)
      | _ => throw (.malformed .missingValue)
    | _ => throw (.malformed .missingValue)

/-! ### Lists -/

/-- Looks for the next element of a list: the input at the element, or nothing at the closing
bracket. -/
def nextElement? (first : Bool) (input : Input) : Except Fault (Option Input) :=
  match skipBlanks input with
  | [] => .error (.ended .list)
  | ']' :: _ => .ok none
  | char :: rest =>
    if first then .ok (some (char :: rest))
    else if char ≠ ',' then .error (.malformed .missingListComma)
    else
      match skipBlanks rest with
      | [] => .error (.ended .value)
      | ']' :: _ => .error (.malformed .trailingComma)
      | other => .ok (some other)

/-- Takes the closing bracket of a list. -/
def endList (input : Input) : Except Fault Input :=
  match skipBlanks input with
  | [] => .error (.ended .list)
  | ']' :: rest => .ok rest
  | ',' :: rest =>
    match skipBlanks rest with
    | ']' :: _ => .error (.malformed .trailingComma)
    | _ => .error (.malformed .trailingCharacters)
  | _ => .error (.malformed .trailingCharacters)

/-- Takes elements up to the closing bracket. -/
def readElements {α : Type} (read : Reader α) : Nat → Bool → Reader (List α)
  | 0, _ => fun _ => .error (.ended .list)
  | fuel + 1, first => fun input => do
    match ← nextElement? first input with
    | none => return ([], ← endList input)
    | some input =>
      let (value, input) ← read input
      let (values, input) ← readElements read fuel false input
      return (value :: values, input)

/-- Takes a list. -/
def readList {α : Type} (read : Reader α) : Reader (List α) := fun input =>
  match skipBlanks input with
  | [] => .error (.ended .value)
  | '[' :: rest => readElements read (rest.length + 1) true rest
  | other => .error (unexpected "a sequence" other)

/-! ### Records -/

/-- A field of a record: its name, and how its value is taken and set. -/
structure Field (α : Type) where
  name : String
  read : α → Reader α

/-- The form of a record. -/
structure Shape (α : Type) where
  title : String
  /-- The record before any field is set. -/
  blank : α
  fields : List (Field α)

/-- A field from the way to take its value and the way to set it. -/
def Field.of {α β : Type} (name : String) (read : Reader β) (set : α → β → α) : Field α :=
  ⟨name, fun record input =>
    match read input with
    | .error fault => .error fault
    | .ok (value, rest) => .ok (set record value, rest)⟩

namespace Shape

variable {α : Type}

/-- What a list with too few values should have been. -/
def lengthWanted (shape : Shape α) : String :=
  s!"{shape.title} with {shape.fields.length} elements"

/-- Takes the values of some fields from a list, the first of them with a given position. -/
def readValues (shape : Shape α) : List (Field α) → Nat → α → Reader α
  | [], _, record => fun input => .ok (record, input)
  | field :: fields, position, record => fun input => do
    match ← nextElement? (position == 0) input with
    | none => throw (.unfit (.length position shape.lengthWanted))
    | some input =>
      let (record, input) ← field.read record input
      shape.readValues fields (position + 1) record input

/-- The first field that was not set. -/
def missing? (shape : Shape α) (seen : List String) : Option String :=
  (shape.fields.map (·.name)).find? (!seen.contains ·)

/-- Looks for the next key of an object: the input behind its opening quote, or nothing at the
closing bracket. -/
def nextKey? (first : Bool) (input : Input) : Except Fault (Option Input) :=
  let key (input : Input) : Except Fault (Option Input) :=
    match input with
    | '"' :: rest => .ok (some rest)
    | '\x7d' :: _ => .error (.malformed .trailingComma)
    | [] => .error (.ended .value)
    | _ => .error (.malformed .keyNotString)
  match skipBlanks input with
  | [] => .error (.ended .object)
  | '\x7d' :: _ => .ok none
  | char :: rest =>
    if first then key (char :: rest)
    else if char = ',' then key (skipBlanks rest)
    else .error (.malformed .missingObjectComma)

/-- Takes the value behind a key. A field may be set only once. -/
def readMember (shape : Shape α) (key : String) (seen : List String) (record : α) : Reader α :=
  fun input => do
    match shape.fields.find? (·.name == key) with
    | some field =>
      if seen.contains key then throw (.unfit (.duplicateField key))
      else field.read record (← takeColon input)
    | none => return (record, ← skipValue (← takeColon input))

/-- Takes keys and values up to the closing bracket. -/
def readMembers (shape : Shape α) : Nat → Bool → List String → α → Reader α
  | 0, _, _, _ => fun _ => .error (.ended .object)
  | fuel + 1, first, seen, record => fun input => do
    match ← nextKey? first input with
    | some input =>
      let (key, input) ← takeString input
      let key := String.ofList key
      let (record, input) ← shape.readMember key seen record input
      shape.readMembers fuel false (key :: seen) record input
    | none =>
      match shape.missing? seen with
      | some name => throw (.unfit (.missingField name))
      | none => return (record, (skipBlanks input).tail)

/-- Takes a record. -/
def read (shape : Shape α) : Reader α := fun input => do
  match skipBlanks input with
  | [] => throw (.ended .value)
  | '[' :: rest =>
    let (record, rest) ← shape.readValues shape.fields 0 shape.blank rest
    return (record, ← endList rest)
  | '\x7b' :: rest => shape.readMembers (rest.length + 1) true [] shape.blank rest
  | other => throw (unexpected shape.title other)

end Shape

/-- Reads a whole text. -/
def parse {α : Type} (read : Reader α) (text : List Char) : Except Fault α :=
  match read text with
  | .error fault => .error fault
  | .ok (value, rest) =>
    if (skipBlanks rest).isEmpty then .ok value else .error (.malformed .trailingCharacters)

end CodeAtlas.Json
