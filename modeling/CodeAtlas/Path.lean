/-
Names and paths are bytes, of which only the slash and the dot mean anything: a name need not be
the encoding of a text, and is shown with replacement characters where it is not.

An absolute path has the slash as its first component. Repeated and trailing slashes do not
count, nor do components of a single dot except at the start of a relative path; two dots are
kept. Paths are compared by components.
-/
import CodeAtlas.Text.Utf8

namespace CodeAtlas

/-- The bytes of a name. -/
abbrev Name := List UInt8

/-- The bytes of a path. -/
abbrev Path := List UInt8

namespace Path

/-- The path with a text. -/
def ofString (text : String) : Path := Text.encode text.toList

instance : Coe String Path := ⟨ofString⟩

/-- The byte between the names of a path. -/
def slash : UInt8 := 0x2F

/-- The byte in front of the extension of a name. -/
def dot : UInt8 := 0x2E

/-- The first component of an absolute path. -/
def top : Name := [slash]

/-- The name that a directory has in itself. -/
def here : Name := [dot]

/-- The name that the directory above has. -/
def above : Name := [dot, dot]

/-- Pieces between slashes. There is one more of them than slashes. -/
def splitSlashes : List UInt8 → List Name
  | [] => [[]]
  | byte :: rest =>
    if byte = slash then [] :: splitSlashes rest
    else
      match splitSlashes rest with
      | piece :: pieces => (byte :: piece) :: pieces
      | [] => [[byte]]

/-- Whether a path starts at the root. -/
def isAbsolute (path : Path) : Bool := path.head? == some slash

/-- The components of a path. -/
def components (path : Path) : List Name :=
  let pieces := splitSlashes path
  let names := pieces.filter fun piece => piece ≠ [] ∧ piece ≠ here
  if path.isAbsolute then top :: names
  else if pieces.head? = some here then here :: names
  else names

/-- Components with slashes between them. -/
def joinComponents (components : List Name) : Path := [slash].intercalate components

/-- A path below another. An absolute path stays as it is. -/
def join (base path : Path) : Path :=
  if path.isAbsolute then path
  else if base.isEmpty ∨ base.getLast? = some slash then base ++ path
  else base ++ slash :: path

/-- What is left of some components behind others, if they start with them. -/
def stripComponents? : List Name → List Name → Option (List Name)
  | [], rest => some rest
  | _ :: _, [] => none
  | component :: base, other :: rest =>
    if component = other then stripComponents? base rest else none

/-- The last component, if it is a name. -/
def fileName? (path : Path) : Option Name :=
  path.components.getLast?.filter fun name => name ≠ top ∧ name ≠ here ∧ name ≠ above

/-- What stands behind the last dot of a name, unless nothing stands before it. -/
def extensionOf? (name : Name) : Option (List UInt8) :=
  let behind := name.reverse.takeWhile (· ≠ dot)
  let before := (name.reverse.drop behind.length).tail
  if before.isEmpty then none else some behind.reverse

/-- The extension of the file that a path names. -/
def extension? (path : Path) : Option (List UInt8) := path.fileName?.bind extensionOf?

/-- Components as they are shown, with slashes between them. -/
def showComponents (components : List Name) : String :=
  "/".intercalate (components.map Text.shown)

/-- A path as seen from a base: the components below the base, or all components if the path is
not below the base. The base itself is shown by its name. -/
def display (base path : Path) : String :=
  let seen := (stripComponents? base.components path.components).getD path.components
  if seen.isEmpty then (path.fileName?.map Text.shown).getD "" else showComponents seen

end Path

end CodeAtlas
