/-
Writing JSON text. Every element of a list and every field of an object is on a line of its
own, indented by two blanks for each bracket around it; an empty list takes no lines.
-/
import CodeAtlas.Json.Scalar

namespace CodeAtlas.Json

/-- A value to write. -/
inductive Value where
  | string (text : List Char)
  | natural (value : Nat)
  | list (values : List Value)
  | object (members : List (String × Value))
deriving Repr

/-- A character inside quotes. -/
def escapeChar (char : Char) : List Char :=
  if char == '"' then ['\\', '"']
  else if char == '\\' then ['\\', '\\']
  else if char == '\x08' then ['\\', 'b']
  else if char == '\x0c' then ['\\', 'f']
  else if char == '\n' then ['\\', 'n']
  else if char == '\r' then ['\\', 'r']
  else if char == '\t' then ['\\', 't']
  else if char.toNat < 0x20 then
    ['\\', 'u', '0', '0', Nat.digitChar (char.toNat / 16), Nat.digitChar (char.toNat % 16)]
  else [char]

/-- A text between quotes. -/
def writeString (text : List Char) : List Char := ['"'] ++ text.flatMap escapeChar ++ ['"']

/-- A new line at a depth. -/
def newLine (depth : Nat) : List Char := '\n' :: List.replicate (2 * depth) ' '

mutual

/-- A value inside so many brackets. -/
def Value.write (depth : Nat) : Value → List Char
  | .string text => writeString text
  | .natural value => Nat.toDigits 10 value
  | .list [] => ['[', ']']
  | .list (value :: values) =>
    ['['] ++ newLine (depth + 1) ++ value.write (depth + 1) ++ writeRest depth values ++ [']']
  | .object [] => ['\x7b', '\x7d']
  | .object ((name, value) :: members) =>
    ['\x7b'] ++ newLine (depth + 1) ++ writeString name.toList ++ [':', ' '] ++
      value.write (depth + 1) ++ writeMembers depth members ++ ['\x7d']

/-- The elements behind the first, and the line of the closing bracket. -/
def writeRest (depth : Nat) : List Value → List Char
  | [] => newLine depth
  | value :: values =>
    [','] ++ newLine (depth + 1) ++ value.write (depth + 1) ++ writeRest depth values

/-- The members behind the first, and the line of the closing bracket. -/
def writeMembers (depth : Nat) : List (String × Value) → List Char
  | [] => newLine depth
  | (name, value) :: members =>
    [','] ++ newLine (depth + 1) ++ writeString name.toList ++ [':', ' '] ++
      value.write (depth + 1) ++ writeMembers depth members

end

end CodeAtlas.Json
