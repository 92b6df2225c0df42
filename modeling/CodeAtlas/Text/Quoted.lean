/-
Text between double quotes, for messages. Quotes, backslashes and the common controls are
escaped with a letter, other characters that cannot stand for themselves by their code.
-/
import CodeAtlas.Text.Printable

namespace CodeAtlas.Text

/-- A number in hexadecimal digits, small letters. -/
def hexDigits (value : Nat) : List Char := Nat.toDigits 16 value

/-- A character inside quotes. -/
def quoteChar (char : Char) : List Char :=
  if char == '\x00' then ['\\', '0']
  else if char == '\t' then ['\\', 't']
  else if char == '\r' then ['\\', 'r']
  else if char == '\n' then ['\\', 'n']
  else if char == '"' || char == '\\' then ['\\', char]
  else if isExtending char || !isPrintable char then
    ['\\', 'u', '\x7b'] ++ hexDigits char.toNat ++ ['\x7d']
  else [char]

/-- A text between quotes. -/
def quote (text : List Char) : List Char := ['"'] ++ text.flatMap quoteChar ++ ['"']

end CodeAtlas.Text
