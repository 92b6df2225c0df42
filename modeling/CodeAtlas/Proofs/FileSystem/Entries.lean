/-
What is where in a file system. A name is listed in a directory exactly when an entry stands
under it there, no name is listed twice, and whatever stands somewhere stands in directories all
the way up.
-/
import Mathlib.Data.List.Induction
import Mathlib.Data.List.Nodup
import CodeAtlas.FileSystem

namespace CodeAtlas.FileSystem

variable (system : FileSystem)

theorem hasDirectory_iff_entry? {location : Location} :
    system.hasDirectory location = true ↔ system.entry? location = some .directory := by
  rw [hasDirectory, Option.any_eq_true]
  constructor
  · rintro ⟨entry, found, isDirectory⟩
    rw [found, Entry.isDirectory_iff.mp isDirectory]
  · intro found
    exact ⟨.directory, found, rfl⟩

theorem entry?_concat (directory : Location) (name : Name) :
    system.entry? (directory ++ [name]) = system.entries.lookup (directory ++ [name]) :=
  if_neg (by simp)

/-- An entry stands in a directory, and under a name. -/
theorem placed_entry {directory : Location} {name : Name} {entry : Entry}
    (found : system.entry? (directory ++ [name]) = some entry) :
    system.hasDirectory directory = true ∧ isEntryName name = true := by
  rw [entry?_concat, system.lookup_eq_some_iff] at found
  obtain ⟨outer, inner, equal, isName, inside⟩ :=
    system.placed _ (List.mem_map_of_mem found)
  obtain ⟨rfl, same⟩ := List.append_inj' equal rfl
  cases same
  exact ⟨system.hasDirectory_iff.mpr inside, isName⟩

/-- A directory has names all the way down. -/
theorem isEntryName_of_hasDirectory {location : Location}
    (directory : system.hasDirectory location = true) :
    ∀ name ∈ location, isEntryName name = true := by
  induction location using List.reverseRecOn with
  | nil => exact fun name member => absurd member List.not_mem_nil
  | append_singleton front last inductionHypothesis =>
    obtain ⟨above, isName⟩ := system.placed_entry (system.hasDirectory_iff_entry?.mp directory)
    intro name member
    rcases List.mem_append.mp member with outer | inner
    · exact inductionHypothesis above name outer
    · rwa [List.mem_singleton.mp inner]

/-! ### Names -/

/-- The name of a location in a directory. -/
def nameIn? (directory location : Location) : Option Name :=
  if location.dropLast = directory then location.getLast? else none

theorem nameIn?_eq_some_iff {directory location : Location} {name : Name} :
    nameIn? directory location = some name ↔ location = directory ++ [name] := by
  unfold nameIn?
  constructor
  · intro named
    split at named
    next equal =>
      obtain ⟨front, rfl⟩ := List.getLast?_eq_some_iff.mp named
      rw [← equal, List.dropLast_concat]
    · cases named
  · rintro rfl
    rw [List.dropLast_concat, if_pos rfl, List.getLast?_concat]

theorem names_perm (directory : Location) :
    (system.names directory).Perm ((system.entries.map (·.1)).filterMap (nameIn? directory)) := by
  rw [List.filterMap_map]
  exact List.mergeSort_perm _ _

theorem mem_names_iff {directory : Location} {name : Name} :
    name ∈ system.names directory ↔ ∃ entry, system.entry? (directory ++ [name]) = some entry := by
  rw [(system.names_perm directory).mem_iff, List.mem_filterMap]
  constructor
  · rintro ⟨location, member, named⟩
    obtain ⟨⟨place, entry⟩, known, rfl⟩ := List.mem_map.mp member
    rw [nameIn?_eq_some_iff] at named
    refine ⟨entry, ?_⟩
    rw [entry?_concat, system.lookup_eq_some_iff, ← named]
    exact known
  · rintro ⟨entry, found⟩
    rw [entry?_concat, system.lookup_eq_some_iff] at found
    exact ⟨_, List.mem_map_of_mem found, nameIn?_eq_some_iff.mpr rfl⟩

theorem nodup_names (directory : Location) : (system.names directory).Nodup := by
  rw [(system.names_perm directory).nodup_iff]
  refine system.distinct.filterMap fun first second name inFirst inSecond => ?_
  rw [nameIn?_eq_some_iff.mp inFirst, nameIn?_eq_some_iff.mp inSecond]

/-- The names in a directory ascend. -/
theorem pairwise_names (directory : Location) :
    (system.names directory).Pairwise (· < ·) := by
  have sorted : (system.names directory).Pairwise fun first second =>
      decide (first ≤ second) = true := by
    refine List.pairwise_mergeSort (fun first second third below above => ?_)
      (fun first second => ?_) _
    · exact decide_eq_true
        (List.le_trans (of_decide_eq_true below) (of_decide_eq_true above))
    · rw [Bool.or_eq_true, decide_eq_true_iff, decide_eq_true_iff]
      exact List.le_total first second
  refine (sorted.and (system.nodup_names directory)).imp fun ⟨below, different⟩ => ?_
  exact List.not_le.mp fun above =>
    different (List.le_antisymm (of_decide_eq_true below) above)

theorem isEntryName_of_mem_names {directory : Location} {name : Name}
    (member : name ∈ system.names directory) : isEntryName name = true := by
  obtain ⟨entry, found⟩ := system.mem_names_iff.mp member
  exact (system.placed_entry found).2

/-! ### Directories -/

theorem mem_directories_iff {location : Location} :
    location ∈ system.directories ↔ system.hasDirectory location = true := by
  rw [directories, List.mem_cons, system.hasDirectory_iff]
  refine or_congr_right ?_
  constructor
  · intro member
    obtain ⟨⟨place, entry⟩, kept, rfl⟩ := List.mem_map.mp member
    obtain ⟨known, isDirectory⟩ := List.mem_filter.mp kept
    rwa [Entry.isDirectory_iff.mp isDirectory] at known
  · intro known
    exact List.mem_map.mpr ⟨(location, .directory), List.mem_filter.mpr ⟨known, rfl⟩, rfl⟩

theorem nodup_directories : system.directories.Nodup := by
  refine List.nodup_cons.mpr ⟨fun top => ?_, system.distinct.sublist (List.filter_sublist.map _)⟩
  obtain ⟨directory, name, equal, -⟩ :=
    system.placed [] ((List.filter_sublist.map _).subset top)
  simp at equal

/-! ### Links -/

theorem mem_links_iff {location : Location} :
    location ∈ system.links ↔ ∃ target, system.entry? location = some (.link target) := by
  constructor
  · intro member
    obtain ⟨⟨place, entry⟩, kept, rfl⟩ := List.mem_map.mp member
    obtain ⟨known, isLink⟩ := List.mem_filter.mp kept
    obtain ⟨directory, name, rfl, -⟩ := system.placed place (List.mem_map_of_mem known)
    cases entry with
    | link target => exact ⟨target, by rw [entry?_concat, system.lookup_eq_some_iff]; exact known⟩
    | directory | file | sink => cases isLink
  · rintro ⟨target, found⟩
    rcases List.eq_nil_or_concat' location with rfl | ⟨directory, name, rfl⟩
    · cases found
    · rw [entry?_concat, system.lookup_eq_some_iff] at found
      exact List.mem_map.mpr ⟨(_, .link target), List.mem_filter.mpr ⟨found, rfl⟩, rfl⟩

theorem mem_besides_iff {links : List Location} {link other : Location} :
    other ∈ besides links link ↔ other ∈ links ∧ other ≠ link := by
  rw [besides, List.mem_filter, decide_eq_true_iff]

end CodeAtlas.FileSystem
