/-
A file system as a finite list of entries. A location is the way from the root directory to an
entry by names; an entry is a directory, a file, a symbolic link or a device. Every entry has a
name of its own in a directory that is there. Paths are resolved from the working directory:
links are followed unless they lead through themselves, two dots lead to the directory above,
and a path with a slash at its end has to be a directory.

A file is written in two steps, of which the second may fail when the first is done: it is opened,
which makes it or empties it, and then bytes are written to it while there is room.

A file holds, besides its bytes, the syntax trees of its text. There is one for each language as
which it has been parsed.
-/
import CodeAtlas.Language
import CodeAtlas.Syntax.Tree

namespace CodeAtlas

/-- The names from the root directory to an entry. -/
abbrev Location := List Name

/-- What is in a file. -/
structure Content where
  bytes : List UInt8
  trees : Language → Option Syntax.Tree := fun _ => none

/-- What is in a file that has been parsed as the language of a path, if at all. -/
def Content.parsedAs (path : Path) (bytes : List UInt8) (tree : Option Syntax.Tree) : Content :=
  ⟨bytes, fun language => if Language.ofPath? path = some language then tree else none⟩

/-- What stands at a location. -/
inductive Entry where
  | directory
  | file (content : Content)
  | link (target : Path)
  /-- A device that takes whatever is written to it and holds nothing. -/
  | sink

/-- Whether some bytes can be the name of an entry. -/
def isEntryName (name : Name) : Bool :=
  name ≠ [] ∧ name ≠ Path.here ∧ name ≠ Path.above ∧ Path.slash ∉ name

theorem isEntryName_iff {name : Name} :
    isEntryName name = true ↔
      name ≠ [] ∧ name ≠ Path.here ∧ name ≠ Path.above ∧ Path.slash ∉ name :=
  decide_eq_true_iff

/-- A file system, the working directory, and the room that there is for a file. -/
structure FileSystem where
  entries : List (Location × Entry)
  distinct : (entries.map (·.1)).Nodup
  /-- Every entry has a name, and a directory that it is in. -/
  placed : ∀ location ∈ entries.map (·.1), ∃ directory name,
    location = directory ++ [name] ∧ isEntryName name = true ∧
      (directory = [] ∨ (directory, .directory) ∈ entries)
  current : Location
  /-- How many bytes can be written to a file, if not any number. -/
  room : Option Nat := none

instance : EmptyCollection FileSystem where
  emptyCollection :=
    { entries := []
      distinct := List.nodup_nil
      placed := fun _ member => absurd member List.not_mem_nil
      current := [] }

/-- Why an operation on files failed. -/
inductive FileError where
  | missing
  | notDirectory
  | isDirectory
  | tooManyLinks
  | notText
  | noSpace
deriving DecidableEq, Repr

/-- The words for a failure. -/
def FileError.message : FileError → String
  | .missing => "No such file or directory (os error 2)"
  | .notDirectory => "Not a directory (os error 20)"
  | .isDirectory => "Is a directory (os error 21)"
  | .tooManyLinks => "Too many levels of symbolic links (os error 40)"
  | .notText => "stream did not contain valid UTF-8"
  | .noSpace => "No space left on device (os error 28)"

namespace Entry

/-- Whether an entry is a directory. -/
def isDirectory : Entry → Bool
  | .directory => true
  | _ => false

/-- Whether an entry is a link. -/
def isLink : Entry → Bool
  | .link _ => true
  | _ => false

@[simp]
theorem isDirectory_iff {entry : Entry} : entry.isDirectory = true ↔ entry = .directory := by
  cases entry <;> simp [isDirectory]

end Entry

namespace FileSystem

/-- What stands at a location. The root directory is always there. -/
def entry? (system : FileSystem) (location : Location) : Option Entry :=
  if location = [] then some .directory else system.entries.lookup location

/-- Whether a directory stands at a location. -/
def hasDirectory (system : FileSystem) (location : Location) : Bool :=
  (system.entry? location).any Entry.isDirectory

theorem lookup_eq_some_iff (system : FileSystem) {location : Location} {entry : Entry} :
    system.entries.lookup location = some entry ↔ (location, entry) ∈ system.entries := by
  rw [List.lookup_eq_some_iff]
  constructor
  · rintro ⟨before, after, equal, -⟩
    rw [equal]
    exact List.mem_append_right before List.mem_cons_self
  · intro member
    obtain ⟨before, after, equal⟩ := List.append_of_mem member
    refine ⟨before, after, equal, fun other otherMember => ?_⟩
    have distinct := system.distinct
    rw [equal, List.map_append, List.map_cons, List.nodup_append] at distinct
    have different := distinct.2.2 other.1 (List.mem_map_of_mem otherMember) location
      List.mem_cons_self
    simpa using fun same => different same.symm

theorem hasDirectory_iff (system : FileSystem) {location : Location} :
    system.hasDirectory location = true ↔
      location = [] ∨ (location, .directory) ∈ system.entries := by
  unfold hasDirectory entry?
  by_cases top : location = []
  · simp [top, Entry.isDirectory]
  · rw [if_neg top, ← system.lookup_eq_some_iff, Option.any_eq_true]
    simp [top]

/-- The names of the entries right inside a directory, in the order of their bytes. -/
def names (system : FileSystem) (directory : Location) : List Name :=
  let inside := system.entries.filterMap fun (location, _) =>
    if location.dropLast = directory then location.getLast? else none
  inside.mergeSort (fun left right => decide (left ≤ right))

/-- The locations of all directories. -/
def directories (system : FileSystem) : List Location :=
  [] :: (system.entries.filter fun (_, entry) => entry.isDirectory).map (·.1)

/-- The locations of all links. -/
def links (system : FileSystem) : List Location :=
  (system.entries.filter fun (_, entry) => entry.isLink).map (·.1)

/-! ### Resolving paths -/

/-- The pieces of a path between slashes. -/
def pieces (path : Path) : List Name := Path.splitSlashes path

/-- Where a path starts. -/
def startFrom (path : Path) (here : Location) : Location := if path.isAbsolute then [] else here

/-- Links without one of them. -/
def besides (links : List Location) (link : Location) : List Location :=
  links.filter fun other => other ≠ link

theorem length_besides_lt {links : List Location} {link : Location} (member : link ∈ links) :
    (besides links link).length < links.length :=
  List.length_filter_lt_length_iff_exists.mpr ⟨link, member, by simp⟩

/-- The location that the pieces of a path lead to. The links that are not being followed are
`idle`: one that is met while it is being followed leads nowhere. -/
def follow (system : FileSystem) (idle : List Location) (here : Location) (path : List Name) :
    Except FileError Location :=
  match path with
  | [] => .ok here
  | piece :: rest =>
    if !system.hasDirectory here then .error .notDirectory
    else if piece = [] ∨ piece = Path.here then system.follow idle here rest
    else if piece = Path.above then system.follow idle here.dropLast rest
    else
      match system.entry? (here ++ [piece]) with
      | none => .error .missing
      | some (.link target) =>
        if _isIdle : here ++ [piece] ∈ idle then
          match system.follow (besides idle (here ++ [piece])) (startFrom target here)
              (pieces target) with
          | .error failure => .error failure
          | .ok there => system.follow idle there rest
        else .error .tooManyLinks
      | some _ => system.follow idle (here ++ [piece]) rest
termination_by (idle.length, path.length)
decreasing_by
  all_goals first
    | exact Prod.Lex.right _ (Nat.lt_succ_self _)
    | exact Prod.Lex.left _ _ (length_besides_lt _isIdle)

/-- The location of the entry that a path leads to. -/
def locate (system : FileSystem) (path : Path) : Except FileError Location :=
  if path.isEmpty then .error .missing
  else system.follow system.links (startFrom path system.current) (pieces path)

/-- The location of the entry that a path leads to, if the entry is there. -/
def locate? (system : FileSystem) (path : Path) : Option Location :=
  (system.locate path).toOption

/-- The location that an entry of a directory leads to. -/
def target? (system : FileSystem) (directory : Location) (name : Name) : Option Location :=
  (system.follow system.links directory [name]).toOption

/-- The directory and the name of an entry that the pieces of a path name. A slash at the end asks
for a directory, and is refused like the names of directories in themselves. -/
def approach (system : FileSystem) (idle : List Location) (here : Location) (path : List Name) :
    Except FileError (Location × Name) :=
  match path.reverse.dropWhile (·.isEmpty) with
  | [] => .error .isDirectory
  | last :: way =>
    match system.follow idle here way.reverse with
    | .error failure => .error failure
    | .ok directory =>
      if !system.hasDirectory directory then .error .notDirectory
      else if last = Path.here ∨ last = Path.above ∨ path.getLast? = some [] then
        .error .isDirectory
      else .ok (directory, last)

/-- The location of the file that the pieces of a path name, for a file that is to be written:
what stands there, or a name in a directory under which nothing stands yet. -/
def place (system : FileSystem) (idle : List Location) (here : Location) (path : List Name) :
    Except FileError Location :=
  match system.approach idle here path with
  | .error failure => .error failure
  | .ok (directory, last) =>
    match system.entry? (directory ++ [last]) with
    | some .directory => .error .isDirectory
    | some (.link target) =>
      if _isIdle : directory ++ [last] ∈ idle then
        system.place (besides idle (directory ++ [last])) (startFrom target directory)
          (pieces target)
      else .error .tooManyLinks
    | _ => .ok (directory ++ [last])
termination_by idle.length
decreasing_by exact length_besides_lt _isIdle

/-! ### Looking -/

/-- The file at a location. -/
def fileAt? (system : FileSystem) (location : Location) : Option Content :=
  match system.entry? location with
  | some (.file content) => some content
  | _ => none

/-- Whether a path leads to a directory. -/
def isDirectory (system : FileSystem) (path : Path) : Bool :=
  (system.locate? path).any system.hasDirectory

/-- The file that a path leads to. -/
def file? (system : FileSystem) (path : Path) : Option Content :=
  (system.locate? path).bind system.fileAt?

/-- Whether a path leads to a file. -/
def isFile (system : FileSystem) (path : Path) : Bool := (system.file? path).isSome

/-- The bytes that are read from where a path leads to. -/
def read (system : FileSystem) (path : Path) : Except FileError (List UInt8) :=
  match system.locate path with
  | .error failure => .error failure
  | .ok location =>
    match system.entry? location with
    | some (.file content) => .ok content.bytes
    | some .sink => .ok []
    | _ => .error .isDirectory

/-- The text that is read from where a path leads to. -/
def readText (system : FileSystem) (path : Path) : Except FileError (List Char) :=
  match system.read path with
  | .error failure => .error failure
  | .ok bytes =>
    match Text.decode? bytes with
    | some text => .ok text
    | none => .error .notText

/-! ### Changing -/

/-- The entries without the one at a location. -/
def without (entries : List (Location × Entry)) (location : Location) :
    List (Location × Entry) :=
  entries.filter fun (other, _) => other ≠ location

theorem nodup_without {entries : List (Location × Entry)}
    (distinct : (entries.map (·.1)).Nodup) (location : Location) :
    (((without entries location)).map (·.1)).Nodup :=
  distinct.sublist (List.filter_sublist.map _)

theorem not_mem_without (entries : List (Location × Entry)) (location : Location) :
    location ∉ (without entries location).map (·.1) := by
  simp [without]

/-- Whether an entry can be put into a directory under a name: the directory is there, the name
is one, and it does not belong to a directory. -/
def isFree (system : FileSystem) (directory : Location) (name : Name) : Bool :=
  system.hasDirectory directory ∧ isEntryName name ∧ !system.hasDirectory (directory ++ [name])

/-- Directories stay where they are when an entry is put at a free place. -/
theorem mem_put_of_hasDirectory (system : FileSystem) {place other : Location}
    (free : system.hasDirectory place = false) (entry : Entry)
    (isDirectory : system.hasDirectory other = true) :
    other = [] ∨ (other, .directory) ∈ (place, entry) :: without system.entries place := by
  rcases system.hasDirectory_iff.mp isDirectory with top | member
  · exact .inl top
  · refine .inr (List.mem_cons_of_mem _ (List.mem_filter.mpr ⟨member, ?_⟩))
    have different : other ≠ place := by
      rintro rfl
      rw [isDirectory] at free
      cases free
    simpa using different

/-- Puts an entry into a directory under a name, in place of the one that is there. Where no
entry can be put nothing changes. -/
def insert (system : FileSystem) (directory : Location) (name : Name) (entry : Entry) :
    FileSystem :=
  if free : system.isFree directory name then
    { system with
      entries := (directory ++ [name], entry) :: without system.entries (directory ++ [name])
      distinct :=
        List.nodup_cons.mpr
          ⟨not_mem_without system.entries _, nodup_without system.distinct _⟩
      placed := by
        simp only [isFree, Bool.not_eq_true', decide_eq_true_eq] at free
        obtain ⟨isDirectory, isName, unused⟩ := free
        intro location member
        rcases List.mem_cons.mp member with rfl | member
        · exact ⟨directory, name, rfl, isName,
            system.mem_put_of_hasDirectory unused entry isDirectory⟩
        · obtain ⟨outer, inner, equal, innerName, inside⟩ :=
            system.placed location ((List.filter_sublist.map _).subset member)
          exact ⟨outer, inner, equal, innerName,
            system.mem_put_of_hasDirectory unused entry (system.hasDirectory_iff.mpr inside)⟩ }
  else system

/-- Puts an entry at a location. -/
def insertAt (system : FileSystem) (location : Location) (entry : Entry) : FileSystem :=
  match location.getLast? with
  | some name => system.insert location.dropLast name entry
  | none => system

/-- Puts bytes into the file at a location, in place of what it holds. A sink stays as it is. -/
def fill (system : FileSystem) (location : Location) (bytes : List UInt8) : FileSystem :=
  match system.entry? location with
  | some .sink => system
  | _ => system.insertAt location (.file { bytes := bytes })

/-- Opens the file that a path names. It is made if it is not there, and emptied if it is. -/
def openFile (system : FileSystem) (path : Path) : Except FileError (FileSystem × Location) :=
  if path.isEmpty then .error .missing
  else
    match system.place system.links (startFrom path system.current) (pieces path) with
    | .error failure => .error failure
    | .ok location => .ok (system.fill location [], location)

/-- The room for bytes at a location, if there is not room for any number. -/
def roomAt (system : FileSystem) (location : Location) : Option Nat :=
  match system.entry? location with
  | some .sink => none
  | _ => system.room

/-- Writes bytes to a file that has been opened, as many as there is room for. -/
def transfer (system : FileSystem) (location : Location) (bytes : List UInt8) :
    FileSystem × Option FileError :=
  match system.roomAt location with
  | none => (system.fill location bytes, none)
  | some room =>
    (system.fill location (bytes.take room), if bytes.length ≤ room then none else some .noSpace)

/-- Writes a file. What was changed before a failure stays changed. -/
def write (system : FileSystem) (path : Path) (bytes : List UInt8) :
    FileSystem × Option FileError :=
  match system.openFile path with
  | .error failure => (system, some failure)
  | .ok (opened, location) => opened.transfer location bytes

/-- Makes the directories that are missing on a way from a directory. -/
def makeDirectories (system : FileSystem) (here : Location) : List Name → FileSystem × Location
  | [] => (system, here)
  | name :: rest =>
    match system.target? here name with
    | some location => system.makeDirectories location rest
    | none =>
      (system.insert here name .directory).makeDirectories (here ++ [name]) rest

/-- The names in a path from the root directory. -/
def namesIn (path : Path) : List Name :=
  path.components.filter fun name => name ≠ Path.top ∧ name ≠ Path.here

/-- Makes a directory, with those above it. -/
def putDirectory (system : FileSystem) (path : Path) : FileSystem :=
  (system.makeDirectories [] (namesIn path)).1

/-- Puts a file, with the directories above it. -/
def putFile (system : FileSystem) (path : Path) (content : Content) : FileSystem :=
  let (system, directory) := system.makeDirectories [] (namesIn path).dropLast
  match system.place system.links directory (namesIn path).getLast?.toList with
  | .ok location => system.insertAt location (.file content)
  | .error _ => system

/-- Puts an entry itself, with the directories above it. -/
def putEntry (system : FileSystem) (path : Path) (entry : Entry) : FileSystem :=
  let (system, directory) := system.makeDirectories [] (namesIn path).dropLast
  system.insertAt (directory ++ (namesIn path).getLast?.toList) entry

/-- What is not inside a location is in directories that are not inside it either. -/
theorem placed_outside (system : FileSystem) (location : Location) :
    ∀ place ∈ (system.entries.filter fun (other, _) => !location.isPrefixOf other).map (·.1),
      ∃ directory name, place = directory ++ [name] ∧ isEntryName name = true ∧
        (directory = [] ∨ (directory, .directory) ∈
          system.entries.filter fun (other, _) => !location.isPrefixOf other) := by
  intro place member
  obtain ⟨⟨place, entry⟩, kept, rfl⟩ := List.mem_map.mp member
  obtain ⟨known, outside⟩ := List.mem_filter.mp kept
  obtain ⟨directory, name, equal, isName, inside⟩ :=
    system.placed place (List.mem_map_of_mem known)
  refine ⟨directory, name, equal, isName, inside.imp_right fun member => ?_⟩
  refine List.mem_filter.mpr ⟨member, ?_⟩
  simp only [Bool.not_eq_true', ← Bool.not_eq_true, List.isPrefixOf_iff_prefix] at outside ⊢
  intro inner
  exact outside (equal ▸ inner.trans (List.prefix_append directory [name]))

/-- Takes an entry away, with all that is inside it. A link is taken away itself. -/
def remove (system : FileSystem) (path : Path) : FileSystem :=
  match system.follow system.links [] (namesIn path).dropLast with
  | .error _ => system
  | .ok directory =>
    let location := directory ++ (namesIn path).getLast?.toList
    { system with
      entries := system.entries.filter fun (other, _) => !location.isPrefixOf other
      distinct := system.distinct.sublist (List.filter_sublist.map _)
      placed := system.placed_outside location }

/-- Enters a directory. -/
def enter (system : FileSystem) (path : Path) : FileSystem :=
  match system.locate? path with
  | some location => { system with current := location }
  | none => system

end FileSystem

end CodeAtlas
