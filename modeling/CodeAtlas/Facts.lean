/-
The facts that an analysis finds: for every function what it is and what it calls, for every
file its functions and imports, and for a whole repository its files and the calls between
them.
-/
import CodeAtlas.Language
import CodeAtlas.NameSet

namespace CodeAtlas

/-- The facts about one function. -/
structure FunctionFacts where
  /-- The path of the file and the name of the function with a dash between them. -/
  key : String
  name : String
  parameters : List String
  returnType : String
  complexity : UInt32
  /-- The line of the first character, counting from one. -/
  startLine : Nat
  /-- The line of the last character. -/
  endLine : Nat
  lines : Nat
  code : String
  /-- The names of what is called anywhere inside. -/
  calls : NameSet
deriving DecidableEq, Repr

/-- The facts about one file. -/
structure FileFacts where
  path : String
  language : Language
  imports : List String
  /-- The functions in the order of their definitions, outer before inner. -/
  functions : List FunctionFacts
  totalLines : Nat
  totalFunctions : Nat
deriving DecidableEq, Repr

/-- A call from a function of one file to a function of another. -/
structure CallEdge where
  source : String
  target : String
  sourceFile : String
  targetFile : String
deriving DecidableEq, Repr

/-- The facts about a repository. -/
structure Atlas where
  files : List FileFacts := []
  edges : List CallEdge := []
  totalFiles : Nat := 0
  totalFunctions : Nat := 0
deriving DecidableEq, Repr

namespace FileFacts

/-- The first function with a name. -/
def function? (file : FileFacts) (name : String) : Option FunctionFacts :=
  file.functions.find? (·.name == name)

end FileFacts

namespace Atlas

/-- Whether there are no files. -/
def isEmpty (atlas : Atlas) : Bool := atlas.files.isEmpty

/-- All functions, each with its file. -/
def functions (atlas : Atlas) : List (FileFacts × FunctionFacts) :=
  atlas.files.flatMap fun file => file.functions.map fun function => (file, function)

end Atlas

end CodeAtlas
