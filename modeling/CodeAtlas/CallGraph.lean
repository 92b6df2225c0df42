/-
The calls between files. A call names only what it calls, so names are looked up in an index of
all functions; where several functions have a name, the last one owns it. A call that leads
back to the file it is made in is left out.
-/
import CodeAtlas.Facts
import Std.Data.HashMap

namespace CodeAtlas

/-- Who owns a name. -/
structure Owner where
  path : String
  key : String
deriving DecidableEq, Repr

/-- The owners of names. -/
abbrev NameIndex := Std.HashMap String Owner

namespace NameIndex

/-- Makes the functions of a file the owners of their names. -/
def addFile (index : NameIndex) (file : FileFacts) : NameIndex :=
  file.functions.foldl
    (fun index function => index.insert function.name ⟨file.path, function.key⟩) index

/-- The owners of the names in some files. -/
def ofFiles (files : List FileFacts) : NameIndex := files.foldl addFile ∅

/-- The edge for one call, if it leads to another file. -/
def edge? (index : NameIndex) (file : FileFacts) (function : FunctionFacts) (callee : String) :
    Option CallEdge :=
  match index[callee]? with
  | some owner =>
    if owner.path = file.path then none
    else some ⟨function.key, owner.key, file.path, owner.path⟩
  | none => none

/-- The edges for the calls of a file. -/
def fileEdges (index : NameIndex) (file : FileFacts) : List CallEdge :=
  file.functions.flatMap fun function =>
    function.calls.names.filterMap (index.edge? file function)

end NameIndex

/-- The edges between some files. -/
def callEdges (files : List FileFacts) : List CallEdge :=
  files.flatMap (NameIndex.ofFiles files).fileEdges

/-- The facts about a repository with some files. -/
def Atlas.ofFiles (files : List FileFacts) : Atlas where
  files := files
  edges := callEdges files
  totalFiles := files.length
  totalFunctions := files.foldr (fun file total => file.totalFunctions + total) 0

end CodeAtlas
