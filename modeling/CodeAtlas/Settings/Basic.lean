/-
What a user can set: which directories and paths to leave out, how many files to look at and
how large they may be, and how many workers to use. All of it is optional.
-/

namespace CodeAtlas

/-- The settings of an analysis. -/
structure Settings where
  /-- Names of directories that are left out, besides the usual ones. -/
  ignoredNames : List String := []
  /-- Patterns of paths that are left out, relative to the root of the analysis. -/
  excludedPaths : List String := []
  /-- Look at no more files than this. -/
  maxFiles : Option Nat := none
  /-- Leave out files with more bytes than this. -/
  maxFileSize : Option Nat := none
  /-- How many workers to use. No answer depends on it. -/
  threads : Option Nat := none
deriving DecidableEq, Repr

/-- The settings by the names that a file gives them. -/
inductive Settings.Field where
  | ignoredNames
  | excludedPaths
  | maxFiles
  | maxFileSize
  | threads
deriving DecidableEq, Repr

namespace Settings

/-- The name of a setting in a file. -/
def Field.name : Field → String
  | .ignoredNames => "extra_ignored_directories"
  | .excludedPaths => "excluded_paths"
  | .maxFiles => "max_files"
  | .maxFileSize => "max_file_size"
  | .threads => "threads"

/-- The setting with a name. -/
def Field.ofName? (name : String) : Option Field :=
  [ignoredNames, excludedPaths, maxFiles, maxFileSize, threads].find? (·.name == name)

/-- The names under which a directory may hold its settings, the first that exists counts. -/
def fileNames : List String := ["archmap.yaml", ".archmap.yaml"]

end Settings

end CodeAtlas
