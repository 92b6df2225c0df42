/-
What writing a file changes. A path that a file can be written to leads to a place: a file that is
there, a sink, or a name in a directory under which nothing stands yet. Once the file is opened the
path leads to the same place, and whatever is written stands there, all of it or as much as there
was room for. Everything else stands where it stood.
-/
import Mathlib.Data.Set.Insert
import CodeAtlas.Proofs.FileSystem.Agreement

namespace CodeAtlas.FileSystem

variable (system : FileSystem)

/-! ### Putting an entry -/

theorem isFree_iff {directory : Location} {name : Name} :
    system.isFree directory name = true ↔
      system.hasDirectory directory = true ∧ isEntryName name = true ∧
        system.hasDirectory (directory ++ [name]) = false := by
  simp [isFree]

theorem entry?_insert_self {directory : Location} {name : Name}
    (free : system.isFree directory name = true) (entry : Entry) :
    entry? (system.insert directory name entry) (directory ++ [name]) = some entry := by
  rw [entry?_concat, insert, dif_pos free]
  exact List.lookup_cons_self

theorem entry?_insert_of_ne {directory location : Location} {name : Name}
    (different : location ≠ directory ++ [name]) (entry : Entry) :
    entry? (system.insert directory name entry) location = system.entry? location := by
  unfold entry?
  split
  · rfl
  · refine Option.ext fun other => ?_
    rw [lookup_eq_some_iff, lookup_eq_some_iff, insert]
    split
    · simp [without, different]
    · rfl

theorem insert_eq_self (directory : Location) (name : Name) (entry : Entry) :
    (system.insert directory name entry).current = system.current ∧
      (system.insert directory name entry).room = system.room := by
  rw [insert]
  split <;> exact ⟨rfl, rfl⟩

/-- Where nothing stands, or a file, another file can be put: nothing else changes. -/
theorem agreeBut_insert {directory : Location} {name : Name}
    (free : system.isFree directory name = true) (content : Content)
    (replaced : ∀ entry, system.entry? (directory ++ [name]) = some entry →
      ∃ content, entry = .file content) :
    system.AgreeBut (system.insert directory name (.file content)) {directory ++ [name]} where
  elsewhere location outside := (system.entry?_insert_of_ne outside _).symm
  oneFile location inside := by
    rw [Set.mem_singleton_iff.mp inside]
    exact replaced
  otherFile location inside entry found := by
    rw [Set.mem_singleton_iff.mp inside, system.entry?_insert_self free] at found
    exact ⟨content, (Option.some.inj found).symm⟩

/-! ### Places for a file -/

/-- A place that a file can be written to: a name in a directory, under which nothing stands, a
file or a sink. -/
structure IsPlace (place : Location) : Prop where
  inside : ∃ directory name, place = directory ++ [name] ∧
    system.hasDirectory directory = true ∧ isEntryName name = true
  holds : ∀ entry, system.entry? place = some entry →
    entry = .sink ∨ ∃ content, entry = .file content

/-- The pieces of a path that does not end in a slash are those before the last one, and the last
one, which is not empty. -/
theorem eq_concat_of_dropWhile {path way : List Name} {last : Name}
    (split : path.reverse.dropWhile (·.isEmpty) = last :: way) (ends : path.getLast? ≠ some []) :
    path = way.reverse ++ [last] ∧ last ≠ [] := by
  have nonempty : last ≠ [] := by
    have head := List.head?_dropWhile_not List.isEmpty path.reverse
    rw [split] at head
    simpa using head
  refine ⟨?_, nonempty⟩
  cases back : path.reverse with
  | nil =>
    rw [back] at split
    cases split
  | cons first rest =>
    have isLast : path.getLast? = some first := by rw [← List.head?_reverse, back]; rfl
    have filled : first.isEmpty = false := by
      cases first with
      | nil => exact absurd isLast ends
      | cons => rfl
    rw [back, List.dropWhile_cons_of_neg (by simp [filled])] at split
    rw [← List.reverse_reverse path, back, split, List.reverse_cons]

/-- A path that names an entry leads to the directory of the entry, and ends in its name. -/
theorem approach_eq_ok {idle : List Location} {here directory : Location} {path : List Name}
    {last : Name} (found : system.approach idle here path = .ok (directory, last)) :
    ∃ way, path = way ++ [last] ∧ system.follow idle here way = .ok directory ∧
      system.hasDirectory directory = true ∧ last ≠ [] ∧ last ≠ Path.here ∧ last ≠ Path.above := by
  unfold approach at found
  split at found
  · cases found
  next name way split =>
    split at found
    · cases found
    next place resolved =>
      split at found
      · cases found
      next isDirectory =>
        split at found
        · cases found
        next named =>
          cases found
          obtain ⟨notDot, notAbove, ends⟩ := not_or.mp named |>.imp_right not_or.mp
          obtain ⟨parts, nonempty⟩ := eq_concat_of_dropWhile split ends
          exact ⟨way.reverse, parts, resolved, by simpa using isDirectory, nonempty, notDot,
            notAbove⟩

theorem isPlace_of_place {idle : List Location} {here place : Location} {path : List Name}
    (noSlash : ∀ piece ∈ path, Path.slash ∉ piece)
    (found : system.place idle here path = .ok place) : system.IsPlace place := by
  fun_induction FileSystem.place system idle here path with
  | case1 | case2 | case4 => cases found
  | case3 idle here path directory last approached target link isIdle inductionHypothesis =>
    exact inductionHypothesis (fun piece => not_mem_of_mem_pieces) found
  | case5 idle here path directory last approached notDirectory notLink =>
    cases found
    obtain ⟨way, rfl, -, isDirectory, nonempty, notDot, notAbove⟩ :=
      system.approach_eq_ok approached
    refine ⟨⟨directory, last, rfl, isDirectory, isEntryName_iff.mpr
      ⟨nonempty, notDot, notAbove, noSlash last (by simp)⟩⟩, fun entry present => ?_⟩
    cases entry with
    | directory => exact (notDirectory present).elim
    | link target => exact (notLink target present).elim
    | file content => exact .inr ⟨content, rfl⟩
    | sink => exact .inl rfl

/-- A place that a path leads to for writing is one that it leads to for reading, if something
stands there. -/
theorem AgreeBut.follow_of_place {system other : FileSystem} {places : Set Location}
    (agree : system.AgreeBut other places) {place : Location} {entry : Entry}
    (notLink : entry.isLink = false) (present : other.entry? place = some entry)
    {idle others : List Location} (same : ∀ link, link ∈ idle ↔ link ∈ others)
    {here : Location} {path : List Name} (found : system.place idle here path = .ok place) :
    other.follow others here path = .ok place := by
  have resolved {idle others : List Location} (same : ∀ link, link ∈ idle ↔ link ∈ others)
      {here directory : Location} {way : List Name}
      (found : system.follow idle here way = .ok directory)
      (isDirectory : system.hasDirectory directory = true) :
      other.follow others here way = .ok directory := by
    refine agree.follow_eq_ok same found fun inside => ?_
    rw [agree.not_hasDirectory inside] at isDirectory
    cases isDirectory
  fun_induction FileSystem.place system idle here path generalizing others with
  | case1 | case2 | case4 => cases found
  | case3 idle here path directory last approached target link isIdle inductionHypothesis =>
    obtain ⟨way, rfl, way_found, isDirectory, nonempty, notDot, notAbove⟩ :=
      system.approach_eq_ok approached
    have sameBesides (place : Location) : place ∈ besides idle (directory ++ [last]) ↔
        place ∈ besides others (directory ++ [last]) := by
      rw [mem_besides_iff, mem_besides_iff, same]
    rw [agree.elsewhere _ (agree.not_mem_of_isLink link)] at link
    rw [follow_append_of_ok (resolved same way_found isDirectory),
      other.follow_link _ _ (agree.hasDirectory_eq _ ▸ isDirectory) (not_or.mpr ⟨nonempty, notDot⟩)
        notAbove link ((same _).mp isIdle), inductionHypothesis sameBesides found]
    exact other.follow_nil _ _
  | case5 idle here path directory last approached notDirectory notALink =>
    cases found
    obtain ⟨way, rfl, way_found, isDirectory, -⟩ := system.approach_eq_ok approached
    rw [follow_append_of_ok (resolved same way_found isDirectory),
      other.follow_name _ _ notLink present, follow_nil]

/-! ### Filling a file -/

/-- A file system after bytes have been put at a place: there is a file with them, and the rest is
as it was. -/
structure Filled (before : FileSystem) (place : Location) (bytes : List UInt8)
    (after : FileSystem) : Prop where
  current : after.current = before.current
  room : after.room = before.room
  present : after.entry? place = some (.file { bytes := bytes })
  agree : before.AgreeBut after {place}

theorem AgreeBut.trans {one other third : FileSystem} {places : Set Location}
    (first : one.AgreeBut other places) (second : other.AgreeBut third places) :
    one.AgreeBut third places where
  elsewhere location outside :=
    (first.elsewhere location outside).trans (second.elsewhere location outside)
  oneFile := first.oneFile
  otherFile := second.otherFile

theorem Filled.trans {before middle after : FileSystem} {place : Location}
    {first second : List UInt8} (one : Filled before place first middle)
    (other : Filled middle place second after) : Filled before place second after where
  current := other.current.trans one.current
  room := other.room.trans one.room
  present := other.present
  agree := one.agree.trans other.agree

variable {system} {place : Location} (isPlace : system.IsPlace place)
include isPlace

theorem filled_fill (notSink : system.entry? place ≠ some .sink) (bytes : List UInt8) :
    Filled system place bytes (system.fill place bytes) := by
  obtain ⟨⟨directory, name, rfl, inDirectory, isName⟩, holds⟩ := isPlace
  have replaced : ∀ entry, system.entry? (directory ++ [name]) = some entry →
      ∃ content, entry = .file content := by
    intro entry found
    exact (holds entry found).resolve_left fun sink => notSink (sink ▸ found)
  have free : system.isFree directory name = true := by
    refine system.isFree_iff.mpr ⟨inDirectory, isName, Bool.eq_false_iff.mpr fun found => ?_⟩
    obtain ⟨content, equal⟩ := replaced _ (system.hasDirectory_iff_entry?.mp found)
    cases equal
  have inserted : system.fill (directory ++ [name]) bytes =
      system.insert directory name (.file { bytes := bytes }) := by
    unfold fill
    split
    next sink => exact absurd sink notSink
    · rw [insertAt, List.getLast?_concat, List.dropLast_concat]
  obtain ⟨current, room⟩ := system.insert_eq_self directory name (.file { bytes := bytes })
  rw [inserted]
  exact ⟨current, room, system.entry?_insert_self free _,
    system.agreeBut_insert free _ replaced⟩

theorem IsPlace.of_filled {bytes : List UInt8} {after : FileSystem}
    (filled : Filled system place bytes after) : after.IsPlace place := by
  obtain ⟨⟨directory, name, rfl, inDirectory, isName⟩, -⟩ := isPlace
  refine ⟨⟨directory, name, rfl, filled.agree.hasDirectory_eq _ ▸ inDirectory, isName⟩, ?_⟩
  intro entry found
  exact .inr ⟨_, Option.some.inj (found.symm.trans filled.present)⟩

/-- What is written to a file that is open: all of it, or as much as there is room for. -/
theorem transfer_of_filled {opened : FileSystem} (isOpen : Filled system place [] opened)
    (bytes : List UInt8) :
    (∃ after, opened.transfer place bytes = (after, none) ∧ Filled system place bytes after ∧
        ∀ room, system.room = some room → bytes.length ≤ room) ∨
      ∃ room after, system.room = some room ∧ room < bytes.length ∧
        opened.transfer place bytes = (after, some .noSpace) ∧
        Filled system place (bytes.take room) after := by
  have fills (kept : List UInt8) : Filled system place kept (opened.fill place kept) :=
    isOpen.trans (filled_fill (isPlace.of_filled isOpen) (by simp [isOpen.present]) kept)
  have roomLeft : opened.roomAt place = system.room := by
    rw [roomAt, isOpen.present]
    exact isOpen.room
  unfold transfer
  rw [roomLeft]
  cases system.room with
  | none => exact .inl ⟨_, rfl, fills bytes, nofun⟩
  | some room =>
    dsimp only
    by_cases fit : bytes.length ≤ room
    · rw [if_pos fit, List.take_of_length_le fit]
      exact .inl ⟨_, rfl, fills bytes, by simpa using fit⟩
    · rw [if_neg fit]
      exact .inr ⟨room, _, rfl, Nat.lt_of_not_le fit, rfl, fills _⟩

omit isPlace

/-! ### Writing -/

/-- A file system after bytes have been written to a path: the path leads to a place that has been
filled with them. -/
def Written (before : FileSystem) (path : Path) (bytes : List UInt8) (after : FileSystem) : Prop :=
  ∃ place, after.locate? path = some place ∧ Filled before place bytes after

/-- What writing bytes to a path may come to. -/
inductive Writes (before : FileSystem) (path : Path) (bytes : List UInt8) :
    FileSystem × Option FileError → Prop
  /-- The file cannot be opened. -/
  | refused {failure : FileError} (closed : before.openFile path = .error failure) :
      Writes before path bytes (before, some failure)
  /-- The path leads to a sink, and the bytes are gone. -/
  | swallowed {place : Location} (located : before.locate? path = some place)
      (sink : before.entry? place = some .sink) : Writes before path bytes (before, none)
  /-- There is room for all. -/
  | whole {after : FileSystem} (fits : ∀ room, before.room = some room → bytes.length ≤ room)
      (written : Written before path bytes after) :
      Writes before path bytes (after, none)
  /-- There is not room for all. -/
  | cut {after : FileSystem} {room : Nat} (limited : before.room = some room)
      (short : room < bytes.length) (written : Written before path (bytes.take room) after) :
      Writes before path bytes (after, some .noSpace)

/-- A file that is opened stands at the place that the path names. -/
theorem openFile_eq_ok {system opened : FileSystem} {path : Path} {place : Location}
    (opening : system.openFile path = .ok (opened, place)) :
    path ≠ [] ∧ opened = system.fill place [] ∧
      system.place system.links (startFrom path system.current) (pieces path) = .ok place := by
  unfold openFile at opening
  split at opening
  · cases opening
  next nonempty =>
    split at opening
    · cases opening
    next found =>
      cases opening
      exact ⟨fun empty => nonempty (List.isEmpty_iff.mpr empty), rfl, found⟩

theorem Filled.locate? {system after : FileSystem} {path : Path} {place : Location}
    {bytes : List UInt8} (filled : Filled system place bytes after) (named : path ≠ [])
    (found : system.place system.links (startFrom path system.current) (pieces path) = .ok place) :
    after.locate? path = some place := by
  refine after.locate?_eq_some_iff.mpr ⟨named, ?_⟩
  rw [LeadsTo, filled.current]
  exact filled.agree.follow_of_place rfl filled.present filled.agree.mem_links_iff found

theorem transfer_fill_sink {system : FileSystem} {place : Location}
    (sink : system.entry? place = some .sink) (bytes : List UInt8) :
    (system.fill place []).transfer place bytes = (system, none) := by
  have stays (kept : List UInt8) : system.fill place kept = system := by
    rw [fill, sink]
  rw [stays, transfer, roomAt, sink, stays]

theorem writes_write (system : FileSystem) (path : Path) (bytes : List UInt8) :
    Writes system path bytes (system.write path bytes) := by
  unfold write
  cases opening : system.openFile path with
  | error failure => exact .refused opening
  | ok result =>
    obtain ⟨opened, place⟩ := result
    obtain ⟨named, rfl, found⟩ := openFile_eq_ok opening
    have isPlace := system.isPlace_of_place (fun piece => not_mem_of_mem_pieces) found
    dsimp only
    by_cases sink : system.entry? place = some .sink
    · have reached := (agreeBut_of_perm (.refl system.entries)).follow_of_place rfl sink
        (fun _ => Iff.rfl) found
      rw [transfer_fill_sink sink]
      exact .swallowed (system.locate?_eq_some_iff.mpr ⟨named, reached⟩) sink
    · rcases transfer_of_filled isPlace (filled_fill isPlace sink []) bytes with
        ⟨after, done, filled, fits⟩ | ⟨room, after, limited, short, failed, filled⟩
      · rw [done]
        exact .whole fits ⟨place, filled.locate? named found, filled⟩
      · rw [failed]
        exact .cut limited short ⟨place, filled.locate? named found, filled⟩

end CodeAtlas.FileSystem
