/-
The text that a syntax tree covers. Offsets count bytes of the text's UTF-8 form, rows count
the line feeds before an offset.
-/
import CodeAtlas.Syntax.Node

namespace CodeAtlas.Syntax

/-- The text of a file. -/
structure Source where
  text : List Char

/-- A text without its first bytes. -/
def dropBytes : Nat → List Char → List Char
  | 0, text => text
  | _ + 1, [] => []
  | count + 1, char :: text => dropBytes (count + 1 - char.utf8Size) text

/-- The first bytes of a text. -/
def takeBytes : Nat → List Char → List Char
  | 0, _ => []
  | _ + 1, [] => []
  | count + 1, char :: text => char :: takeBytes (count + 1 - char.utf8Size) text

namespace Source

/-- The text between two offsets: the characters that start there. -/
def slice (source : Source) (start stop : Nat) : List Char :=
  dropBytes start (takeBytes stop source.text)

/-- The text that a node covers. -/
def textOf (source : Source) (node : Node) : List Char :=
  source.slice node.tree.label.start node.tree.label.stop

/-- The text that a node covers, as a string. -/
def stringOf (source : Source) (node : Node) : String := String.ofList (source.textOf node)

/-- How many lines end before an offset. -/
def row (source : Source) (offset : Nat) : Nat := (takeBytes offset source.text).count '\n'

/-- How many lines a text has. -/
def lineCount (source : Source) : Nat := source.text.count '\n' + 1

end Source

end CodeAtlas.Syntax
