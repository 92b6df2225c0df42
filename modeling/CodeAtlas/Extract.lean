/-
The facts of one file, from its text and its syntax tree. Every definition that has a name
becomes a function, the definitions inside it as well, and what is decided or called inside
counts for all definitions around it.
-/
import CodeAtlas.Facts
import CodeAtlas.Dialect.Table

namespace CodeAtlas

open CodeAtlas.Syntax

/-- A file that has been parsed. -/
structure ParsedFile where
  dialect : Dialect
  source : Source
  tree : Tree

namespace Dialect

/-- One more than the number of decisions in a definition, modulo 2^32. -/
def complexity (dialect : Dialect) (node : Node) : UInt32 :=
  1 + (node.descendants.countP dialect.isDecision).toUInt32

/-- The names of what is called in a definition, apart from its own name and from names that
are never recorded. -/
def calls (dialect : Dialect) (source : Source) (own : String) (node : Node) : NameSet :=
  .ofList ((node.descendants.filterMap (dialect.callee? source)).filter fun name =>
    name ≠ own ∧ !dialect.isExcluded name)

/-- The imports of a file, in the order of the source. -/
def imports (dialect : Dialect) (source : Source) (root : Node) : List String :=
  ((root.descendants.flatMap (dialect.importNodes source)).filterMap fun node =>
    dialect.importText? (source.textOf node)).map String.ofList

end Dialect

/-- What stands for a return type that is not written. -/
def unknownReturnType : String := "unknown"

namespace ParsedFile

/-- The root of the tree. -/
def root (file : ParsedFile) : Node := .root file.tree

/-- The name of a definition, if it has one that is not empty. -/
def definedName? (file : ParsedFile) (node : Node) : Option String :=
  (file.dialect.name? file.source node).filter (!·.isEmpty)

/-- The facts about a definition with a name, in a file that is shown by a path. -/
def functionFacts (file : ParsedFile) (path name : String) (node : Node) : FunctionFacts :=
  let startLine := file.source.row node.tree.label.start + 1
  let endLine := file.source.row node.tree.label.stop + 1
  { key := path ++ "-" ++ name
    name := name
    parameters := file.dialect.parameters file.source node
    returnType := (file.dialect.returnType? file.source node).getD unknownReturnType
    complexity := file.dialect.complexity node
    startLine := startLine
    endLine := endLine
    lines := endLine - startLine + 1
    code := file.source.stringOf node
    calls := file.dialect.calls file.source name node }

/-- The definitions of a file. -/
def definitions (file : ParsedFile) : List Node :=
  file.root.descendants.filter file.dialect.isFunction

/-- The facts about the definitions of a file that have names. -/
def functions (file : ParsedFile) (path : String) : List FunctionFacts :=
  file.definitions.filterMap fun node =>
    (file.definedName? node).map fun name => file.functionFacts path name node

/-- The code of the first definition with a name. -/
def code? (file : ParsedFile) (name : String) : Option String :=
  (file.definitions.find? fun node => file.dialect.name? file.source node == some name).map
    file.source.stringOf

/-- The facts about a file that is shown by a path. -/
def facts (file : ParsedFile) (path : String) : FileFacts :=
  let functions := file.functions path
  { path := path
    language := file.dialect.language
    imports := file.dialect.imports file.source file.root
    functions := functions
    totalLines := file.source.lineCount
    totalFunctions := functions.length }

end ParsedFile

end CodeAtlas
