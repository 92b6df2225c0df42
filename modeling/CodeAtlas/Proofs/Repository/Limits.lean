/-
What the limits on an analysis do. Large files are left out first, and of the rest the first ones
are taken, so a limit on the number of files cuts off the end of what would be found without it,
and a stricter limit on their size leaves a sublist. What cannot be measured would not be left out,
but all that a walk lists is a file whose size is known. A file that is found counts whether there
is anything to say about it or not: the facts under a limit are those about the first files, and a
higher limit only adds facts behind them.
-/
import CodeAtlas.Proofs.Repository.Records

namespace CodeAtlas

open FileSystem Walk

/-- Settings with other limits, on the size of files and on their number. -/
def Settings.limited (settings : Settings) (size count : Option Nat) : Settings :=
  { settings with maxFileSize := size, maxFiles := count }

namespace Repository

theorem isSmall_eq_true_iff {system : FileSystem} {limit : Nat} {path : Path} :
    isSmall system limit path = true ↔
      ∀ content, system.file? path = some content → content.bytes.length ≤ limit := by
  unfold isSmall
  cases system.file? path with
  | none => simp
  | some content => simp

/-- The paths of files that a limit on their size lets pass. -/
def withinSize (system : FileSystem) (size : Option Nat) (paths : List Path) : List Path :=
  match size with
  | some limit => paths.filter (isSmall system limit)
  | none => paths

theorem mem_withinSize_iff {system : FileSystem} {limit : Nat} {paths : List Path} {path : Path} :
    path ∈ withinSize system (some limit) paths ↔
      path ∈ paths ∧
        ∀ content, system.file? path = some content → content.bytes.length ≤ limit := by
  rw [withinSize, List.mem_filter, isSmall_eq_true_iff]

/-- Whatever passes the limit on size is a file that is not larger, if it is a file at all. -/
theorem exists_small_of_mem_withinSize {system : FileSystem} {limit : Nat} {paths : List Path}
    {path : Path} (files : ∀ path ∈ paths, ∃ content, system.file? path = some content)
    (member : path ∈ withinSize system (some limit) paths) :
    ∃ content, system.file? path = some content ∧ content.bytes.length ≤ limit := by
  obtain ⟨inPaths, small⟩ := mem_withinSize_iff.mp member
  obtain ⟨content, found⟩ := files path inPaths
  exact ⟨content, found, small content found⟩

theorem withinSize_sublist (system : FileSystem) {small large : Nat} (below : small ≤ large)
    (paths : List Path) :
    (withinSize system (some small) paths).Sublist (withinSize system (some large) paths) := by
  refine List.monotone_filter_right paths fun path passes => ?_
  rw [isSmall_eq_true_iff] at passes ⊢
  exact fun content found => Nat.le_trans (passes content found) below

section Limited

variable {settings : Settings} {rules : Rules} (compiled : Rules.ofSettings settings = .ok rules)
  (system : FileSystem) (root : Path) (size : Option Nat)
include compiled

theorem walk_limited (count : Option Nat) :
    (Repository.mk root (settings.limited size count)).walk system =
      .ok (paths system rules root) := by
  have same : Rules.ofSettings (settings.limited size count) = .ok rules := compiled
  exact walk_eq_ok same system

theorem discover_unlimited :
    (Repository.mk root (settings.limited size none)).discover system =
      .ok (withinSize system size (paths system rules root)) := by
  rw [discover, walk_limited compiled]
  cases size <;> rfl

theorem discover_limited (count : Nat) :
    (Repository.mk root (settings.limited size (some count))).discover system =
      .ok ((withinSize system size (paths system rules root)).take count) := by
  rw [discover, walk_limited compiled]
  cases size <;> rfl

theorem atlas_limited (count : Nat) :
    (Repository.mk root (settings.limited size (some count))).atlas system =
      .ok (.ofFiles (((withinSize system size (paths system rules root)).take count).filterMap
        ((Repository.mk root settings).fileFacts? system))) := by
  rw [atlas, discover_limited compiled]
  rfl

end Limited

end Repository

end CodeAtlas
