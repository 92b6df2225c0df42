/-
The analysis of a repository: its files are found, each is analysed on its own, and the calls
between them are resolved. A file that cannot be analysed is left out.
-/
import CodeAtlas.CallGraph
import CodeAtlas.Extract
import CodeAtlas.Settings.File
import CodeAtlas.Walk

namespace CodeAtlas

/-- A file of a known language whose text is not blank, parsed. -/
def ParsedFile.load? (system : FileSystem) (path : Path) : Option ParsedFile :=
  match Language.ofPath? path, system.file? path with
  | some language, some content =>
    let text := Text.decode content.bytes
    if Text.isBlankText text then none
    else (content.trees language).map fun tree => ⟨language.dialect, ⟨text⟩, tree⟩
  | _, _ => none

/-- The code of the first function with a name in a file. -/
def functionCode? (system : FileSystem) (path : Path) (name : String) : Option String :=
  (ParsedFile.load? system path).bind (·.code? name)

/-- A repository: the path of its root as it was given, and the settings for it. -/
structure Repository where
  root : Path
  settings : Settings := {}

namespace Repository

/-- How a path is shown in facts. -/
def display (repository : Repository) (path : Path) : String := Path.display repository.root path

/-- The facts about a file. A path that is not absolute starts at the root. -/
def fileFacts? (repository : Repository) (system : FileSystem) (path : Path) :
    Option FileFacts :=
  let path := repository.root.join path
  (ParsedFile.load? system path).map (·.facts (repository.display path))

/-- The facts about some files, in their order. -/
def allFacts (repository : Repository) (system : FileSystem) (paths : List Path) :
    List FileFacts :=
  paths.filterMap (repository.fileFacts? system)

/-- The files below the root that the rules let pass. -/
def walk (repository : Repository) (system : FileSystem) : Except Failure (List Path) :=
  match Walk.Rules.ofSettings repository.settings with
  | .error invalid => .error (.pattern invalid)
  | .ok rules => .ok (Walk.paths system rules repository.root)

/-- Whether a file is not too large. What cannot be measured is not. -/
def isSmall (system : FileSystem) (limit : Nat) (path : Path) : Bool :=
  match system.file? path with
  | some content => content.bytes.length ≤ limit
  | none => true

/-- The files to look at: those below the root that are not too large, and no more of them than
the settings allow. -/
def discover (repository : Repository) (system : FileSystem) : Except Failure (List Path) :=
  match repository.walk system with
  | .error failure => .error failure
  | .ok paths =>
    let small :=
      match repository.settings.maxFileSize with
      | some limit => paths.filter (isSmall system limit)
      | none => paths
    .ok (match repository.settings.maxFiles with
      | some limit => small.take limit
      | none => small)

/-- The facts about the whole repository. -/
def atlas (repository : Repository) (system : FileSystem) : Except Failure Atlas :=
  match repository.discover system with
  | .error failure => .error failure
  | .ok paths => .ok (.ofFiles (repository.allFacts system paths))

end Repository

end CodeAtlas
