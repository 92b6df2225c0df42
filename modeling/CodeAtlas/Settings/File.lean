/-
Settings from files, and what can go wrong on the way to them or with them.
-/
import CodeAtlas.FileSystem
import CodeAtlas.Glob.Pattern
import CodeAtlas.Settings.Reader

namespace CodeAtlas

/-- Why an analysis could not be made. -/
inductive Failure where
  | file (failure : FileError)
  | settings (rejection : Settings.Rejection)
  | pattern (invalid : Glob.Invalid)
deriving DecidableEq, Repr

/-- The words for a failure. -/
def Failure.message : Failure → String
  | .file failure => "IO error: " ++ failure.message
  | .settings rejection => "invalid config: " ++ rejection.message
  | .pattern invalid => "invalid glob pattern: " ++ invalid.message

namespace Settings

/-- The settings in a text. -/
def parse (text : String) : Except Failure Settings :=
  match ofText text.toList with
  | .ok settings => .ok settings
  | .error rejection => .error (.settings rejection)

/-- The settings in a file. -/
def load (system : FileSystem) (path : Path) : Except Failure Settings :=
  match system.readText path with
  | .error failure => .error (.file failure)
  | .ok text => parse (String.ofList text)

/-- The file with the settings of a directory. -/
def find? (system : FileSystem) (directory : Path) : Option Path :=
  (fileNames.map fun name : String => directory.join name).find? system.isFile

/-- The settings of a directory, if it has a file with them. -/
def discover (system : FileSystem) (directory : Path) : Except Failure (Option Settings) :=
  match find? system directory with
  | none => .ok none
  | some path =>
    match load system path with
    | .error failure => .error failure
    | .ok settings => .ok (some settings)

end Settings

end CodeAtlas
