/-
What can be wrong with a JSON text that is to be read as a value of a known form. A text may
end too early, it may not be JSON, or it may be JSON of another form. The wording of every
fault is in this file.
-/
import CodeAtlas.Number.Shortest
import CodeAtlas.Text.Quoted

namespace CodeAtlas.Json

open CodeAtlas.Number

/-- What a text ends in the middle of. -/
inductive Unfinished where
  | list
  | object
  | string
  | value
deriving DecidableEq, Repr

/-- Why a text is not JSON. -/
inductive Problem where
  | missingColon
  | missingListComma
  | missingObjectComma
  | badWord
  | missingValue
  | badEscape
  | badNumber
  | numberOutOfRange
  | controlCharacter
  | keyNotString
  | loneSurrogate
  | halfSurrogatePair
  | trailingComma
  | trailingCharacters
deriving DecidableEq, Repr

/-- What was found in place of something else. -/
inductive Found where
  | null
  | boolean (value : Bool)
  | integer (value : Int)
  | number (value : Binary64)
  | string (text : List Char)
  | list
  | object
deriving DecidableEq, Repr

/-- Why a text is JSON of another form. -/
inductive Mismatch where
  | type (found : Found) (wanted : String)
  | value (found : Found) (wanted : String)
  | length (found : Nat) (wanted : String)
  | missingField (name : String)
  | duplicateField (name : String)
  | unknownChoice (name : List Char) (choices : List String)
deriving DecidableEq, Repr

/-- What is wrong with a text. -/
inductive Fault where
  | ended (unfinished : Unfinished)
  | malformed (problem : Problem)
  | unfit (mismatch : Mismatch)
deriving DecidableEq, Repr

/-! ### Wording -/

/-- The words for a text that ends too early. -/
def Unfinished.describe : Unfinished → String
  | .list => "EOF while parsing a list"
  | .object => "EOF while parsing an object"
  | .string => "EOF while parsing a string"
  | .value => "EOF while parsing a value"

/-- The words for a text that is not JSON. -/
def Problem.describe : Problem → String
  | .missingColon => "expected \x60:\x60"
  | .missingListComma => "expected \x60,\x60 or \x60]\x60"
  | .missingObjectComma => "expected \x60,\x60 or \x60\x7d\x60"
  | .badWord => "expected ident"
  | .missingValue => "expected value"
  | .badEscape => "invalid escape"
  | .badNumber => "invalid number"
  | .numberOutOfRange => "number out of range"
  | .controlCharacter => "control character (\\u0000-\\u001F) found while parsing a string"
  | .keyNotString => "key must be a string"
  | .loneSurrogate => "lone leading surrogate in hex escape"
  | .halfSurrogatePair => "unexpected end of hex escape"
  | .trailingComma => "trailing comma"
  | .trailingCharacters => "trailing characters"

/-- Numbers between 10^-5 and 10^16 are written in full. -/
def numberStyle : Binary64.NumberStyle := ⟨fun leading => -5 ≤ leading && leading < 16, 2⟩

/-- The words for what was found. -/
def Found.describe : Found → String
  | .null => "null"
  | .boolean value => s!"boolean \x60{value}\x60"
  | .integer value => s!"integer \x60{value}\x60"
  | .number value => s!"floating point \x60{String.ofList (value.write numberStyle)}\x60"
  | .string text => s!"string {String.ofList (Text.quote text)}"
  | .list => "sequence"
  | .object => "map"

/-- Choices, each between backticks. -/
def describeChoices (choices : List String) : String :=
  ", ".intercalate (choices.map fun choice => s!"\x60{choice}\x60")

/-- The words for JSON of another form. -/
def Mismatch.describe : Mismatch → String
  | .type found wanted => s!"invalid type: {found.describe}, expected {wanted}"
  | .value found wanted => s!"invalid value: {found.describe}, expected {wanted}"
  | .length found wanted => s!"invalid length {found}, expected {wanted}"
  | .missingField name => s!"missing field \x60{name}\x60"
  | .duplicateField name => s!"duplicate field \x60{name}\x60"
  | .unknownChoice name choices =>
    s!"unknown variant \x60{String.ofList name}\x60, expected one of {describeChoices choices}"

/-- The words for a fault. -/
def Fault.message : Fault → String
  | .ended unfinished => unfinished.describe
  | .malformed problem => problem.describe
  | .unfit mismatch => mismatch.describe

end CodeAtlas.Json
