/-
Which files an analysis looks at. From the root every directory is entered once, whatever
links lead to it: names with a dot in front, names that are ignored and paths that a pattern
excludes are passed over, and what is found is listed in the order of the names, the content of
a directory at the place of the directory.

The entries that are still to be looked at form a list. The directories that have not been
entered form another, and the work ends because a step either takes an entry from the first
list or a directory from the second.
-/
import CodeAtlas.FileSystem
import CodeAtlas.Glob.Match
import CodeAtlas.Language
import CodeAtlas.Settings.Basic

namespace CodeAtlas

/-- Names of directories that hold no sources of their own. -/
def ignoredDirectories : List String :=
  [".git", ".svn", ".hg", "node_modules", "bower_components", ".npm", ".yarn", "venv", ".venv",
    "env", ".env", "virtualenv", "__pycache__", ".pytest_cache", ".mypy_cache", ".ruff_cache",
    "site-packages", ".eggs", "dist", "build", "out", "output", "target", "bin", "obj", ".next",
    ".nuxt", ".output", ".cache", ".parcel-cache", ".vscode", ".idea", ".vs", ".eclipse",
    "vendor", "packages", "libs", "lib", "third_party", "external", "coverage", ".coverage",
    "htmlcov", ".tox", "tmp", "temp", "logs", "assets", "static", "public", "media", "uploads"]

namespace Walk

/-- The names from the root of a walk to an entry. -/
abbrev Route := List Name

/-- What a walk passes over. -/
structure Rules where
  ignoredNames : List String := []
  excluded : List (List Glob.Part) := []

/-- The rules of some settings. -/
def Rules.ofSettings (settings : Settings) : Except Glob.Invalid Rules :=
  match Glob.parseAll settings.excludedPaths with
  | .error invalid => .error invalid
  | .ok excluded => .ok ⟨settings.ignoredNames, excluded⟩

/-- Whether a directory is passed over for its name, as it is shown. -/
def Rules.ignores (rules : Rules) (name : Name) : Bool :=
  ignoredDirectories.contains (Text.shown name) || rules.ignoredNames.contains (Text.shown name)

/-- Whether an entry is passed over for its path. -/
def Rules.excludes (rules : Rules) (route : Route) : Bool :=
  Glob.isMatchAny rules.excluded (Path.joinComponents route)

/-- Whether a name has a dot in front, as it is shown. -/
def isHidden (name : Name) : Bool := (Text.lossy name).head? == some '.'

/-- Whether a name has the extension of a language. -/
def isSource (name : Name) : Bool := (Language.ofPath? name).isSome

/-- A directory that is walked: where it is, the names from the root of the walk to it, and where
the directories on that way are, the directory itself among them. -/
structure Folder where
  location : Location
  route : Route
  around : List Location

namespace Folder

/-- The root of a walk. -/
def top (location : Location) : Folder := ⟨location, [], [location]⟩

/-- The directory behind an entry. -/
def below (folder : Folder) (name : Name) (location : Location) : Folder :=
  ⟨location, folder.route ++ [name], location :: folder.around⟩

end Folder

/-- An entry that is still to be looked at: the directory it is in, and its name. -/
structure Pending where
  folder : Folder
  name : Name

/-- What happens to an entry: it is passed over, it is a directory to enter, or it is a file to
list. -/
inductive Verdict where
  | pass
  | enter (location : Location)
  | list
deriving DecidableEq, Repr

namespace Pending

/-- The names from the root of the walk to the entry. -/
def route (entry : Pending) : Route := entry.folder.route ++ [entry.name]

/-- Whether an entry is passed over, whatever it is. -/
def isSkipped (rules : Rules) (entry : Pending) : Bool :=
  isHidden entry.name || rules.excludes entry.route

/-- Whether an entry is a link back to a directory that it is below. -/
def isLoop (system : FileSystem) (entry : Pending) (location : Location) : Bool :=
  (system.entry? (entry.folder.location ++ [entry.name])).any Entry.isLink &&
    entry.folder.around.contains location

/-- What happens to an entry. What it leads to decides, where it leads anywhere. -/
def verdict (system : FileSystem) (rules : Rules) (entry : Pending) : Verdict :=
  match system.target? entry.folder.location entry.name with
  | none => .pass
  | some location =>
    if entry.isLoop system location || entry.isSkipped rules then .pass
    else
      match system.entry? location with
      | some .directory => if rules.ignores entry.name then .pass else .enter location
      | some (.file _) => if isSource entry.name then .list else .pass
      | _ => .pass

end Pending

/-- The entries of a directory. -/
def inside (system : FileSystem) (folder : Folder) : List Pending :=
  (system.names folder.location).map (⟨folder, ·⟩)

/-- Looks at the pending entries. The directories that may still be entered are `fresh`. -/
def run (system : FileSystem) (rules : Rules) (fresh : List Location) (pending : List Pending) :
    List Route :=
  match pending with
  | [] => []
  | entry :: rest =>
    match entry.verdict system rules with
    | .pass => run system rules fresh rest
    | .list => entry.route :: run system rules fresh rest
    | .enter location =>
      if _unseen : location ∈ fresh then
        run system rules (fresh.erase location)
          (inside system (entry.folder.below entry.name location) ++ rest)
      else run system rules fresh rest
termination_by (fresh.length, pending.length)
decreasing_by
  all_goals simp_wf
  all_goals first
    | (apply Prod.Lex.right; omega)
    | (apply Prod.Lex.left
       rw [List.length_erase_of_mem ‹location ∈ fresh›]
       have := List.length_pos_of_mem ‹location ∈ fresh›
       omega)

/-- The files below a root, each by the names from the root to it. A root that is a file is
the only one, without names. -/
def routes (system : FileSystem) (rules : Rules) (root : Path) : List Route :=
  match system.locate? root with
  | none => []
  | some location =>
    if system.hasDirectory location then
      run system rules (system.directories.erase location) (inside system (.top location))
    else if (system.fileAt? location).isSome ∧ (Language.ofPath? root).isSome then [[]]
    else []

/-- The path of an entry below a root. -/
def pathOf (root : Path) (route : Route) : Path := route.foldl Path.join root

/-- The paths of the files below a root. -/
def paths (system : FileSystem) (rules : Rules) (root : Path) : List Path :=
  (routes system rules root).map (pathOf root)

end Walk

end CodeAtlas
