/-
The languages whose files are analysed, and the file extensions that belong to them.
-/
import CodeAtlas.Path

namespace CodeAtlas

/-- A language that is analysed. -/
inductive Language where
  | python
  | javascript
  | typescript
  | java
  | cpp
  | rust
deriving DecidableEq, Repr

namespace Language

/-- All languages. -/
def all : List Language := [python, javascript, typescript, java, cpp, rust]

/-- The name of a language in answers. -/
def name : Language → String
  | .python => "python"
  | .javascript => "javascript"
  | .typescript => "typescript"
  | .java => "java"
  | .cpp => "cpp"
  | .rust => "rust"

/-- The language with a name. -/
def ofName? (name : String) : Option Language := all.find? (·.name == name)

/-- The extensions of files, each with its language. -/
def extensions : List (String × Language) :=
  [("py", python), ("js", javascript), ("jsx", javascript), ("ts", typescript),
    ("tsx", typescript), ("java", java), ("cpp", cpp), ("cc", cpp), ("cxx", cpp), ("h", cpp),
    ("hpp", cpp), ("rs", rust)]

/-- The language of an extension. Dots in front and the case of letters do not count. -/
def ofExtension? (extension : String) : Option Language :=
  let bare := (extension.toList.dropWhile (· == '.')).map Char.toLower
  extensions.lookup (String.ofList bare)

/-- The language of the file that a path names. An extension that is no text belongs to none. -/
def ofPath? (path : Path) : Option Language :=
  (path.extension?.bind Text.decode?).bind fun extension => ofExtension? (String.ofList extension)

end Language

end CodeAtlas
