/-
What a walk finds where links lead about. Without patterns that exclude paths, whether an entry
is passed over depends on the entry alone and not on the way to it. A walk then finds all there
is to find, and finds it once: of every directory that can be reached through names that are
neither hidden nor ignored it lists each source file by exactly one path, and it lists nothing
else. A link back to a directory around it can be passed over because that directory has been
entered already.
-/
import CodeAtlas.Proofs.Walk.Tour
import CodeAtlas.Repository

namespace CodeAtlas.Walk

/-- A directory is reached from the top of a walk through entries whose names have no dot in front
and are not ignored, as they are shown. -/
inductive Reachable (system : FileSystem) (settings : Settings) (top : Location) :
    Location → Prop
  | top : Reachable system settings top top
  | entry {directory location : Location} {name : Name} :
      Reachable system settings top directory → name ∈ system.names directory →
      name.head? ≠ some Path.dot → Text.shown name ∉ ignoredDirectories →
      Text.shown name ∉ settings.ignoredNames →
      system.target? directory name = some location → system.hasDirectory location = true →
      Reachable system settings top location

/-- An entry is a source: its name has no dot in front and has the extension of a language, and it
leads to a file. -/
structure IsSourceEntry (system : FileSystem) (directory : Location) (name : Name) : Prop where
  named : name ∈ system.names directory
  visible : name.head? ≠ some Path.dot
  extension : isSource name = true
  file : ∃ location content, system.target? directory name = some location ∧
    system.entry? location = some (.file content)

theorem Rules.ignores_eq_false_iff {rules : Rules} {name : Name} :
    rules.ignores name = false ↔
      Text.shown name ∉ ignoredDirectories ∧ Text.shown name ∉ rules.ignoredNames := by
  rw [Rules.ignores, Bool.or_eq_false_iff, List.contains_eq_mem, List.contains_eq_mem,
    decide_eq_false_iff_not, decide_eq_false_iff_not]

/-- A dot is shown in front of a name exactly if it is there. -/
theorem isHidden_eq_false_iff {name : Name} :
    isHidden name = false ↔ name.head? ≠ some Path.dot := by
  rw [isHidden, beq_eq_false_iff_ne, Ne, Text.head?_lossy_eq_ascii_iff (by decide)]
  rfl

/-- Where no paths are excluded, a file with the extension of a language is listed. -/
theorem Pending.verdict_of_source {system : FileSystem} {folder : Folder} {name : Name}
    {content : Content} {language : Language}
    (found : system.entry? (folder.location ++ [name]) = some (.file content))
    (visible : name.head? ≠ some Path.dot) (known : Language.ofPath? name = some language) :
    (⟨folder, name⟩ : Pending).verdict system {} = .list := by
  refine Pending.verdict_of_file found ?_ ?_
  · rw [isSkipped, isHidden_eq_false_iff.mpr visible]
    rfl
  · rw [isSource, known]
    rfl

theorem walk_eq_ok {repository : Repository} {rules : Rules}
    (compiled : Rules.ofSettings repository.settings = .ok rules) (system : FileSystem) :
    repository.walk system = .ok (paths system rules repository.root) := by
  rw [Repository.walk, compiled]

/-- The rules of settings that exclude no paths. -/
def plainRules (settings : Settings) : Rules := ⟨settings.ignoredNames, []⟩

theorem ofSettings_eq_plainRules {settings : Settings} (noPatterns : settings.excludedPaths = []) :
    Rules.ofSettings settings = .ok (plainRules settings) := by
  rw [Rules.ofSettings, noPatterns]
  rfl

theorem isSkipped_plainRules (settings : Settings) (entry : Pending) :
    entry.isSkipped (plainRules settings) = isHidden entry.name := by
  rw [Pending.isSkipped]
  exact Bool.or_false _

theorem isSkipped_eq_false_iff {rules : Rules} {folder : Folder} {name : Name} :
    (⟨folder, name⟩ : Pending).isSkipped rules = false ↔
      isHidden name = false ∧ rules.excludes (folder.route ++ [name]) = false := by
  rw [Pending.isSkipped, Bool.or_eq_false_iff]
  rfl

/-- In a directory that is entered, the sources are listed that are not excluded on the route to
the directory. -/
theorem Tour.verdict_eq_list_iff_included {system : FileSystem} {rules : Rules} {top : Location}
    {routes : List Route} {folders : List Folder} (tour : Tour system rules top routes folders)
    (directory : system.hasDirectory top = true) {folder : Folder} (member : folder ∈ folders)
    {name : Name} (named : name ∈ system.names folder.location) :
    (⟨folder, name⟩ : Pending).verdict system rules = .list ↔
      IsSourceEntry system folder.location name ∧
        rules.excludes (folder.route ++ [name]) = false := by
  rw [Pending.verdict_eq_list_iff]
  constructor
  · rintro ⟨location, content, target, -, notSkipped, isFile, extension⟩
    obtain ⟨visible, included⟩ := isSkipped_eq_false_iff.mp notSkipped
    exact ⟨⟨named, isHidden_eq_false_iff.mp visible, extension, location, content, target, isFile⟩,
      included⟩
  · rintro ⟨⟨-, visible, extension, location, content, target, isFile⟩, included⟩
    refine ⟨location, content, target, ?_, isSkipped_eq_false_iff.mpr
      ⟨isHidden_eq_false_iff.mpr visible, included⟩, isFile, extension⟩
    -- The directories around the entry are directories, and this is a file.
    rw [Pending.isLoop, Bool.and_eq_false_iff, List.contains_eq_mem]
    refine .inr (decide_eq_false fun inAround => ?_)
    obtain ⟨other, otherMember, rfl⟩ := tour.around folder member location inAround
    have isDirectory := (tour.entered other otherMember).hasDirectory directory
    rw [system.hasDirectory_iff_entry?, isFile] at isDirectory
    cases isDirectory

section Plain

variable {system : FileSystem} {settings : Settings} {top : Location} {folder : Folder}

theorem Entered.reachable (entered : Entered system (plainRules settings) top folder) :
    Reachable system settings top folder.location := by
  induction entered with
  | top => exact .top
  | next _ named verdict inductionHypothesis =>
    obtain ⟨target, -, notSkipped, isDirectory, notIgnored⟩ :=
      Pending.verdict_eq_enter_iff.mp verdict
    rw [isSkipped_plainRules] at notSkipped
    obtain ⟨notUsual, notExtra⟩ := Rules.ignores_eq_false_iff.mp notIgnored
    exact inductionHypothesis.entry named (isHidden_eq_false_iff.mp notSkipped) notUsual notExtra
      target isDirectory

variable {routes : List Route} {folders : List Folder}
  (tour : Tour system (plainRules settings) top routes folders)
include tour

/-- Every directory that can be reached is entered. An entry that leads to it is either entered,
now or before, or is a link to a directory around it. -/
theorem Tour.exists_folder {location : Location}
    (reachable : Reachable system settings top location) :
    ∃ folder ∈ folders, folder.location = location := by
  induction reachable with
  | top => exact ⟨_, tour.top_mem, rfl⟩
  | @entry directory location name _ named visible notUsual notExtra target isDirectory
      inductionHypothesis =>
    obtain ⟨folder, member, rfl⟩ := inductionHypothesis
    cases loop : (⟨folder, name⟩ : Pending).isLoop system location with
    | true =>
      rw [Pending.isLoop, Bool.and_eq_true, List.contains_iff_mem] at loop
      exact tour.around folder member location loop.2
    | false =>
      refine tour.closed folder member name named location ?_
      refine Pending.verdict_eq_enter_iff.mpr ⟨target, loop, ?_, isDirectory, ?_⟩
      · rw [isSkipped_plainRules]
        exact isHidden_eq_false_iff.mpr visible
      · exact Rules.ignores_eq_false_iff.mpr ⟨notUsual, notExtra⟩

theorem Tour.verdict_eq_list_iff (directory : system.hasDirectory top = true)
    (member : folder ∈ folders) {name : Name} (named : name ∈ system.names folder.location) :
    (⟨folder, name⟩ : Pending).verdict system (plainRules settings) = .list ↔
      IsSourceEntry system folder.location name := by
  rw [tour.verdict_eq_list_iff_included directory member named]
  exact and_iff_left rfl

end Plain

/-- Without excluded paths, a walk from a directory lists the sources of the directories that can
be reached from it, each by exactly one path that denotes it, and nothing else. -/
theorem walk_lists_reachable_sources (system : FileSystem) (settings : Settings)
    (noPatterns : settings.excludedPaths = []) (root : Path) (top : Location)
    (located : system.locate? root = some top) (directory : system.hasDirectory top = true) :
    ∃ paths, (Repository.mk root settings).walk system = .ok paths ∧ paths.Nodup ∧
      (∀ location name, Reachable system settings top location →
        IsSourceEntry system location name →
        ∃! path, path ∈ paths ∧ system.Denotes path location name) ∧
      (∀ path ∈ paths, ∃ location name, Reachable system settings top location ∧
        IsSourceEntry system location name ∧ system.Denotes path location name) := by
  obtain ⟨folders, tour⟩ := exists_tour (plainRules settings) located directory
  have listed (path : Path) :
      path ∈ paths system (plainRules settings) root ↔
        ∃ folder ∈ folders, ∃ name, IsSourceEntry system folder.location name ∧
          path = pathOf root (folder.route ++ [name]) := by
    rw [paths, List.mem_map]
    constructor
    · rintro ⟨route, member, rfl⟩
      obtain ⟨folder, inFolders, name, named, verdict, rfl⟩ := tour.mem_routes_iff.mp member
      exact ⟨folder, inFolders, name,
        (tour.verdict_eq_list_iff directory inFolders named).mp verdict, rfl⟩
    · rintro ⟨folder, inFolders, name, source, rfl⟩
      refine ⟨_, tour.mem_routes_iff.mpr ⟨folder, inFolders, name, source.named, ?_, rfl⟩, rfl⟩
      exact (tour.verdict_eq_list_iff directory inFolders source.named).mpr source
  refine ⟨_, walk_eq_ok (ofSettings_eq_plainRules noPatterns) system, ?_, ?_, ?_⟩
  · refine (tour.nodup_routes located).map_on fun first firstMember second secondMember same => ?_
    exact pathOf_injective root (tour.named firstMember) (tour.named secondMember) same
  · intro location name reachable source
    obtain ⟨folder, member, rfl⟩ := tour.exists_folder reachable
    refine ⟨pathOf root (folder.route ++ [name]),
      ⟨(listed _).mpr ⟨folder, member, name, source, rfl⟩,
        tour.denotes located member source.named⟩, ?_⟩
    rintro path ⟨inPaths, denotes⟩
    obtain ⟨other, otherMember, second, secondSource, rfl⟩ := (listed path).mp inPaths
    obtain ⟨sameLocation, rfl⟩ :=
      denotes.unique (tour.denotes located otherMember secondSource.named)
    rw [tour.eq_of_location member otherMember sameLocation]
  · intro path inPaths
    obtain ⟨folder, member, name, source, rfl⟩ := (listed path).mp inPaths
    exact ⟨folder.location, name, (tour.entered folder member).reachable, source,
      tour.denotes located member source.named⟩

/-- A package with a link back to itself inside, and a link to it beside. -/
def linkedPackage : FileSystem :=
  ((((∅ : FileSystem).insert [] "pkg" .directory).insert
    ["pkg"] "mod.py" (.file { bytes := [] })).insert
    ["pkg"] "loop" (.link "/pkg")).insert [] "alias" (.link "pkg")

theorem linkedPackage_reachable : Reachable linkedPackage {} [] ["pkg"] := by
  have found : linkedPackage.entry? ([] ++ [("pkg" : Name)]) = some .directory := rfl
  exact .entry .top (linkedPackage.mem_names_iff.mpr ⟨_, found⟩) (by decide) (by decide +kernel)
    (by decide) (linkedPackage.target?_of_not_link found rfl) (by decide)

theorem linkedPackage_source : IsSourceEntry linkedPackage ["pkg"] "mod.py" := by
  have found : linkedPackage.entry? ([("pkg" : Name)] ++ [("mod.py" : Name)]) =
      some (.file { bytes := [] }) := rfl
  exact ⟨linkedPackage.mem_names_iff.mpr ⟨_, found⟩, by decide, by decide +kernel, _, _,
    linkedPackage.target?_of_not_link found rfl, found⟩

/-- The module of the package is listed once, for all the paths that lead to it. -/
theorem linkedPackage_lists_module_once :
    linkedPackage.locate? "/" = some [] ∧ linkedPackage.hasDirectory [] = true ∧
      Reachable linkedPackage {} [] ["pkg"] ∧ IsSourceEntry linkedPackage ["pkg"] "mod.py" ∧
      ∃ paths, (Repository.mk "/" {}).walk linkedPackage = .ok paths ∧
        ∃! path, path ∈ paths ∧ linkedPackage.Denotes path ["pkg"] "mod.py" := by
  refine ⟨linkedPackage.locate?_root, rfl, linkedPackage_reachable, linkedPackage_source, ?_⟩
  obtain ⟨paths, walked, -, complete, -⟩ :=
    walk_lists_reachable_sources linkedPackage {} rfl "/" [] linkedPackage.locate?_root rfl
  exact ⟨paths, walked, complete _ _ linkedPackage_reachable linkedPackage_source⟩

end CodeAtlas.Walk
