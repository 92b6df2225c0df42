/-
File systems that agree but for some places, where each has a file or nothing. Whatever is
resolved to another place in one of them is resolved to it in the other as well: a file leads
nowhere, so on the way to another place none of these places is passed.

Where nothing is left out, the file systems hold the same entries in perhaps another order, and
nothing that is looked up tells them apart.
-/
import Mathlib.Data.Set.Basic
import CodeAtlas.Proofs.FileSystem.Resolution
import CodeAtlas.Proofs.Lexicographic

namespace CodeAtlas.FileSystem

/-- Two file systems agree but for some places: elsewhere the same stands in both, and at these
places each has a file or nothing. -/
structure AgreeBut (one other : FileSystem) (places : Set Location) : Prop where
  elsewhere : ∀ location ∉ places, one.entry? location = other.entry? location
  oneFile : ∀ location ∈ places, ∀ entry, one.entry? location = some entry →
    ∃ content, entry = .file content
  otherFile : ∀ location ∈ places, ∀ entry, other.entry? location = some entry →
    ∃ content, entry = .file content

namespace AgreeBut

variable {one other : FileSystem} {places : Set Location} (agree : one.AgreeBut other places)
include agree

theorem symm : other.AgreeBut one places where
  elsewhere location outside := (agree.elsewhere location outside).symm
  oneFile := agree.otherFile
  otherFile := agree.oneFile

theorem not_hasDirectory {location : Location} (inside : location ∈ places) :
    one.hasDirectory location = false := by
  rw [← Bool.not_eq_true, one.hasDirectory_iff_entry?]
  intro found
  obtain ⟨content, equal⟩ := agree.oneFile location inside _ found
  cases equal

theorem not_mem_of_isLink {location : Location} {target : Path}
    (link : one.entry? location = some (.link target)) : location ∉ places := by
  intro inside
  obtain ⟨content, equal⟩ := agree.oneFile location inside _ link
  cases equal

theorem hasDirectory_eq (location : Location) :
    one.hasDirectory location = other.hasDirectory location := by
  by_cases inside : location ∈ places
  · rw [agree.not_hasDirectory inside, agree.symm.not_hasDirectory inside]
  · rw [hasDirectory, hasDirectory, agree.elsewhere location inside]

/-- The two file systems have the same links. -/
theorem mem_links_iff (location : Location) : location ∈ one.links ↔ location ∈ other.links := by
  rw [one.mem_links_iff, other.mem_links_iff]
  constructor
  · rintro ⟨target, link⟩
    exact ⟨target, agree.elsewhere _ (agree.not_mem_of_isLink link) ▸ link⟩
  · rintro ⟨target, link⟩
    exact ⟨target, agree.symm.elsewhere _ (agree.symm.not_mem_of_isLink link) ▸ link⟩

/-- What leads to another place does not start at one of the places. -/
theorem not_mem_of_follow {idle : List Location} {here location : Location} {path : List Name}
    (found : one.follow idle here path = .ok location) (outside : location ∉ places) :
    here ∉ places := by
  intro inside
  cases path with
  | nil =>
    rw [follow_nil] at found
    exact outside (Except.ok.inj found ▸ inside)
  | cons piece rest =>
    rw [follow_outside one _ _ _ (agree.not_hasDirectory inside)] at found
    cases found

/-- What is resolved in one of the file systems, and not to one of the places, is resolved in the
other. -/
theorem follow_eq_ok {idle others : List Location} (same : ∀ link, link ∈ idle ↔ link ∈ others)
    {here location : Location} {path : List Name}
    (found : one.follow idle here path = .ok location) (outside : location ∉ places) :
    other.follow others here path = .ok location := by
  fun_induction follow one idle here path generalizing others location with
  | case1 idle here => rw [follow_nil, found]
  | case2 | case5 | case6 | case8 => cases found
  | case3 idle here piece rest directory blank inductionHypothesis =>
    rw [agree.hasDirectory_eq] at directory
    rw [follow_blank other _ _ (by simpa using directory) blank]
    exact inductionHypothesis same found outside
  | case4 idle here rest directory _ inductionHypothesis =>
    rw [agree.hasDirectory_eq] at directory
    rw [follow_above other _ _ (by simpa using directory)]
    exact inductionHypothesis same found outside
  | case7 idle here piece rest directory notBlank notAbove target link isIdle there reached
      targetHypothesis restHypothesis =>
    have sameBesides (place : Location) : place ∈ besides idle (here ++ [piece]) ↔
        place ∈ besides others (here ++ [piece]) := by
      rw [mem_besides_iff, mem_besides_iff, same]
    rw [agree.hasDirectory_eq] at directory
    rw [agree.elsewhere _ (agree.not_mem_of_isLink link)] at link
    rw [follow_link other _ _ (by simpa using directory) notBlank notAbove link
      ((same _).mp isIdle),
      targetHypothesis sameBesides reached (agree.not_mem_of_follow found outside)]
    exact restHypothesis same found outside
  | case9 idle here piece rest directory notBlank notAbove entry notLink present
      inductionHypothesis =>
    rw [agree.hasDirectory_eq] at directory
    rw [agree.elsewhere _ (agree.not_mem_of_follow found outside)] at present
    rw [follow_entry other _ _ (by simpa using directory) notBlank notAbove
      (isLink_eq_false notLink) present]
    exact inductionHypothesis same found outside

theorem locate?_eq_some {path : Path} {location : Location}
    (located : one.locate? path = some location)
    (start : startFrom path one.current = startFrom path other.current)
    (outside : location ∉ places) : other.locate? path = some location := by
  obtain ⟨nonempty, found⟩ := one.locate?_eq_some_iff.mp located
  rw [LeadsTo, start] at found
  exact other.locate?_eq_some_iff.mpr
    ⟨nonempty, agree.follow_eq_ok agree.mem_links_iff found outside⟩

end AgreeBut

/-! ### The same entries -/

/-- The order in which entries are kept does not count. -/
theorem agreeBut_of_perm {one other : FileSystem} (same : one.entries.Perm other.entries) :
    one.AgreeBut other ∅ where
  elsewhere location _ := by
    unfold entry?
    split
    · rfl
    · refine Option.ext fun entry => ?_
      rw [one.lookup_eq_some_iff, other.lookup_eq_some_iff, same.mem_iff]
  oneFile _ inside := absurd inside (Set.notMem_empty _)
  otherFile _ inside := absurd inside (Set.notMem_empty _)

namespace AgreeBut

variable {one other : FileSystem} (agree : one.AgreeBut other ∅)
include agree

theorem entry?_eq (location : Location) : one.entry? location = other.entry? location :=
  agree.elsewhere location (Set.notMem_empty location)

theorem names_eq (directory : Location) : one.names directory = other.names directory := by
  refine eq_of_pairwise_of_mem_iff List.lt_asymm (one.pairwise_names directory)
    (other.pairwise_names directory) fun name => ?_
  rw [one.mem_names_iff, other.mem_names_iff, agree.entry?_eq]

theorem target?_eq (directory : Location) (name : Name) :
    one.target? directory name = other.target? directory name := by
  refine Option.ext fun location => ?_
  rw [one.target?_eq_some_iff, other.target?_eq_some_iff]
  exact ⟨fun found => agree.follow_eq_ok agree.mem_links_iff found (Set.notMem_empty location),
    fun found => agree.symm.follow_eq_ok agree.symm.mem_links_iff found
      (Set.notMem_empty location)⟩

theorem locate?_eq (current : one.current = other.current) (path : Path) :
    one.locate? path = other.locate? path := by
  refine Option.ext fun location => ?_
  exact ⟨fun located => agree.locate?_eq_some located (by rw [current]) (Set.notMem_empty location),
    fun located => agree.symm.locate?_eq_some located (by rw [current]) (Set.notMem_empty location)⟩

theorem directories_perm : one.directories.Perm other.directories := by
  refine (List.perm_ext_iff_of_nodup one.nodup_directories other.nodup_directories).mpr
    fun location => ?_
  rw [one.mem_directories_iff, other.mem_directories_iff, agree.hasDirectory_eq]

end AgreeBut

end CodeAtlas.FileSystem
