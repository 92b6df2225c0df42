/-
A file system as a JSON text: the working directory, and the entries in the order in which
they are put. A file comes with its text and with the labels of its syntax tree, each with its
depth; a file that has not been parsed has none.
-/
import CodeAtlas.FileSystem
import CodeAtlas.Json.Reader

namespace CodeAtlas.Snapshot

open CodeAtlas.Json

/-- What an entry is. -/
inductive Kind where
  | directory
  | file
  | link
deriving DecidableEq, Repr

/-- An entry as it is written. The content is the text of a file or the target of a link. -/
structure Row where
  path : String
  kind : Kind
  content : String
  labels : List (Nat × Syntax.Label)

/-- A file system as it is written. -/
structure Sheet where
  current : String
  rows : List Row

/-- Takes what an entry is. -/
def readKind : Reader Kind :=
  readChoice ["directory", "file", "link"] fun
    | "directory" => some .directory
    | "file" => some .file
    | "link" => some .link
    | _ => none

/-- Takes whether a node is named or a token. -/
def readNamed : Reader Bool :=
  readChoice ["named", "token"] fun
    | "named" => some true
    | "token" => some false
    | _ => none

/-- Takes a depth or an offset. -/
def readOffset : Reader Nat := readNatural UInt64.size "offset"

/-- The form of a label with its depth. No field is written as an empty one. -/
def labelShape : Shape (Nat × Syntax.Label) where
  title := "label"
  blank := (0, ⟨"", true, none, 0, 0⟩)
  fields :=
    [.of "depth" readOffset fun (_, label) value => (value, label),
      .of "kind" readText fun (depth, label) value => (depth, { label with kind := value }),
      .of "class" readNamed fun (depth, label) value => (depth, { label with named := value }),
      .of "field" readText fun (depth, label) value =>
        (depth, { label with field := if value.isEmpty then none else some value }),
      .of "start" readOffset fun (depth, label) value => (depth, { label with start := value }),
      .of "stop" readOffset fun (depth, label) value => (depth, { label with stop := value })]

/-- The form of an entry. -/
def rowShape : Shape Row where
  title := "entry"
  blank := ⟨"", .directory, "", []⟩
  fields :=
    [.of "path" readText fun row value => { row with path := value },
      .of "kind" readKind fun row value => { row with kind := value },
      .of "content" readText fun row value => { row with content := value },
      .of "tree" (readList labelShape.read) fun row value => { row with labels := value }]

/-- The form of a file system. -/
def sheetShape : Shape Sheet where
  title := "snapshot"
  blank := ⟨"/", []⟩
  fields :=
    [.of "current" readText fun sheet value => { sheet with current := value },
      .of "entries" (readList rowShape.read) fun sheet value => { sheet with rows := value }]

/-- Puts an entry. -/
def Row.put (row : Row) (system : FileSystem) : FileSystem :=
  match row.kind with
  | .directory => system.putDirectory row.path
  | .link => system.putEntry row.path (.link row.content)
  | .file =>
    system.putFile row.path
      (.parsedAs row.path (Text.encode row.content.toList) (Syntax.Tree.ofDepths? row.labels))

/-- The file system of a sheet. -/
def Sheet.system (sheet : Sheet) : FileSystem :=
  (sheet.rows.foldl (fun system row => row.put system)
    ((∅ : FileSystem).putDirectory sheet.current)).enter sheet.current

/-- The file system in a text. -/
def parse (text : String) : Except Fault FileSystem :=
  match Json.parse sheetShape.read text.toList with
  | .error fault => .error fault
  | .ok sheet => .ok sheet.system

end CodeAtlas.Snapshot
