/-
What a walk selects where there are no links. An entry is looked at only if all directories on
the way to it have been entered, so the rules that are applied entry by entry amount to a
condition on the whole route of a file: on all its names, on its directories and on all its
fronts. Directories are the ends of their routes, so none is passed over for having been entered
on another way.
-/
import Mathlib.Data.List.Infix
import CodeAtlas.Proofs.Walk.Coverage

namespace CodeAtlas

/-- No entry of a file system is a link. -/
def FileSystem.HasNoLinks (system : FileSystem) : Prop :=
  ∀ location target, system.entry? location ≠ some (.link target)

theorem FileSystem.hasNoLinks_of_entries {system : FileSystem}
    (links : ∀ entry ∈ system.entries, entry.2.isLink = false) : system.HasNoLinks := by
  intro location target found
  unfold FileSystem.entry? at found
  split at found
  · cases found
  · exact Bool.noConfusion (links _ (system.lookup_eq_some_iff.mp found))

namespace Walk

/-- A route passes: no name is hidden, and neither the route nor a front of it is excluded. -/
structure Passes (rules : Rules) (route : Route) : Prop where
  visible : ∀ name ∈ route, isHidden name = false
  included : ∀ front, front <+: route → front ≠ [] → rules.excludes front = false

/-- A route can be walked down: it passes, and no name is ignored. -/
structure Descends (rules : Rules) (route : Route) : Prop extends Passes rules route where
  heeded : ∀ name ∈ route, rules.ignores name = false

theorem descends_nil (rules : Rules) : Descends rules [] where
  visible _ member := absurd member List.not_mem_nil
  included _ inside nonempty := absurd (List.prefix_nil.mp inside) nonempty
  heeded _ member := absurd member List.not_mem_nil

theorem passes_concat_iff {rules : Rules} {route : Route} {name : Name} :
    Passes rules (route ++ [name]) ↔
      Passes rules route ∧ isHidden name = false ∧ rules.excludes (route ++ [name]) = false := by
  constructor
  · rintro ⟨visible, included⟩
    refine ⟨⟨fun other member => visible other (List.mem_append_left _ member),
      fun front inside => included front (inside.trans (List.prefix_append _ _))⟩,
      visible name (List.mem_append_right _ List.mem_cons_self), ?_⟩
    exact included _ (List.prefix_refl _) (List.concat_ne_nil _ _)
  · rintro ⟨⟨visible, included⟩, notHidden, notExcluded⟩
    refine ⟨fun other member => ?_, fun front inside nonempty => ?_⟩
    · rcases List.mem_append.mp member with outer | last
      · exact visible other outer
      · rw [List.mem_singleton.mp last]
        exact notHidden
    · rcases List.prefix_concat_iff.mp inside with rfl | inside
      · exact notExcluded
      · exact included front inside nonempty

theorem descends_concat_iff {rules : Rules} {route : Route} {name : Name} :
    Descends rules (route ++ [name]) ↔
      Descends rules route ∧ isHidden name = false ∧ rules.excludes (route ++ [name]) = false ∧
        rules.ignores name = false := by
  constructor
  · rintro ⟨passes, heeded⟩
    obtain ⟨passesFront, notHidden, notExcluded⟩ := passes_concat_iff.mp passes
    exact ⟨⟨passesFront, fun other member => heeded other (List.mem_append_left _ member)⟩,
      notHidden, notExcluded, heeded name (List.mem_append_right _ List.mem_cons_self)⟩
  · rintro ⟨⟨passes, heeded⟩, notHidden, notExcluded, notIgnored⟩
    refine ⟨passes_concat_iff.mpr ⟨passes, notHidden, notExcluded⟩, fun other member => ?_⟩
    rcases List.mem_append.mp member with outer | last
    · exact heeded other outer
    · rw [List.mem_singleton.mp last]
      exact notIgnored

theorem ignoredNames_of_ofSettings {settings : Settings} {rules : Rules}
    (compiled : Rules.ofSettings settings = .ok rules) :
    rules.ignoredNames = settings.ignoredNames := by
  unfold Rules.ofSettings at compiled
  split at compiled
  · cases compiled
  · cases compiled
    rfl

section NoLinks

variable {system : FileSystem} {rules : Rules} {top : Location} {folder : Folder} {name : Name}
  (noLinks : system.HasNoLinks)
include noLinks

theorem isLink_of_hasNoLinks {location : Location} {entry : Entry}
    (found : system.entry? location = some entry) : entry.isLink = false := by
  cases entry with
  | link target => exact absurd found (noLinks location target)
  | directory | file | sink => rfl

theorem isLoop_of_hasNoLinks (entry : Pending) (location : Location) :
    entry.isLoop system location = false := by
  rw [Pending.isLoop]
  cases found : system.entry? (entry.folder.location ++ [entry.name]) with
  | none => rfl
  | some other => rw [Option.any_some, isLink_of_hasNoLinks noLinks found, Bool.false_and]

theorem verdict_eq_enter_of_hasNoLinks {location : Location}
    (named : name ∈ system.names folder.location) :
    (⟨folder, name⟩ : Pending).verdict system rules = .enter location ↔
      location = folder.location ++ [name] ∧ system.hasDirectory location = true ∧
        isHidden name = false ∧ rules.excludes (folder.route ++ [name]) = false ∧
        rules.ignores name = false := by
  obtain ⟨entry, found⟩ := system.mem_names_iff.mp named
  have target := system.target?_of_not_link found (isLink_of_hasNoLinks noLinks found)
  rw [Pending.verdict_eq_enter_iff, target, isSkipped_eq_false_iff]
  constructor
  · rintro ⟨same, -, ⟨notHidden, notExcluded⟩, directory, notIgnored⟩
    exact ⟨(Option.some.inj same).symm, directory, notHidden, notExcluded, notIgnored⟩
  · rintro ⟨rfl, directory, notHidden, notExcluded, notIgnored⟩
    exact ⟨rfl, isLoop_of_hasNoLinks noLinks _ _, ⟨notHidden, notExcluded⟩, directory, notIgnored⟩

theorem verdict_eq_list_of_hasNoLinks (named : name ∈ system.names folder.location) :
    (⟨folder, name⟩ : Pending).verdict system rules = .list ↔
      (∃ content, system.entry? (folder.location ++ [name]) = some (.file content)) ∧
        isHidden name = false ∧ rules.excludes (folder.route ++ [name]) = false ∧
        isSource name = true := by
  obtain ⟨entry, found⟩ := system.mem_names_iff.mp named
  have target := system.target?_of_not_link found (isLink_of_hasNoLinks noLinks found)
  rw [Pending.verdict_eq_list_iff, target]
  constructor
  · rintro ⟨location, content, same, -, notSkipped, isFile, extension⟩
    obtain ⟨notHidden, notExcluded⟩ := isSkipped_eq_false_iff.mp notSkipped
    exact ⟨⟨content, Option.some.inj same ▸ isFile⟩, notHidden, notExcluded, extension⟩
  · rintro ⟨⟨content, isFile⟩, notHidden, notExcluded, extension⟩
    exact ⟨_, content, rfl, isLoop_of_hasNoLinks noLinks _ _,
      isSkipped_eq_false_iff.mpr ⟨notHidden, notExcluded⟩, isFile, extension⟩

/-- A directory that is entered is at the end of its route, and the route can be walked down. -/
theorem Entered.descends (entered : Entered system rules top folder) :
    folder.location = top ++ folder.route ∧ Descends rules folder.route := by
  induction entered with
  | top => exact ⟨(List.append_nil top).symm, descends_nil rules⟩
  | next _ named verdict inductionHypothesis =>
    obtain ⟨place, descends⟩ := inductionHypothesis
    obtain ⟨rfl, -, passes⟩ := (verdict_eq_enter_of_hasNoLinks noLinks named).mp verdict
    refine ⟨?_, descends_concat_iff.mpr ⟨descends, passes⟩⟩
    rw [Folder.below, place, List.append_assoc]

/-- A directory whose route can be walked down is entered, on that route. -/
theorem Tour.exists_folder_of_descends {routes : List Route} {folders : List Folder}
    (tour : Tour system rules top routes folders) {route : Route}
    (directory : system.hasDirectory (top ++ route) = true) (descends : Descends rules route) :
    ∃ folder ∈ folders, folder.route = route := by
  induction route using List.reverseRecOn with
  | nil => exact ⟨_, tour.top_mem, rfl⟩
  | append_singleton route name inductionHypothesis =>
    obtain ⟨descendsFront, passes⟩ := descends_concat_iff.mp descends
    rw [← List.append_assoc] at directory
    have found := system.hasDirectory_iff_entry?.mp directory
    obtain ⟨folder, member, rfl⟩ :=
      inductionHypothesis (system.placed_entry found).1 descendsFront
    have place := ((tour.entered folder member).descends noLinks).1
    rw [← place] at directory found
    have named := system.mem_names_iff.mpr ⟨_, found⟩
    obtain ⟨other, otherMember, equal⟩ := tour.closed folder member name named _
      ((verdict_eq_enter_of_hasNoLinks noLinks named).mpr ⟨rfl, directory, passes⟩)
    rw [((tour.entered other otherMember).descends noLinks).1, place, List.append_assoc] at equal
    exact ⟨other, otherMember, List.append_cancel_left equal⟩

end NoLinks

/-- Without links, a walk from a directory lists a path exactly when it is that of a file below
the directory none of whose names has a dot in front, none of whose directories is ignored, of
which no front is excluded, and which has the extension of a language. The directory itself is
not tested. -/
theorem walk_lists_passing_files (system : FileSystem) (noLinks : system.HasNoLinks)
    (settings : Settings) (rules : Rules) (compiled : Rules.ofSettings settings = .ok rules)
    (root : Path) (top : Location) (located : system.locate? root = some top)
    (directory : system.hasDirectory top = true) :
    ∃ paths, (Repository.mk root settings).walk system = .ok paths ∧
      ∀ path, path ∈ paths ↔
        ∃ route content, path = pathOf root route ∧
          system.entry? (top ++ route) = some (.file content) ∧
          (∀ name ∈ route, name.head? ≠ some Path.dot) ∧
          (∀ name ∈ route.dropLast,
            Text.shown name ∉ ignoredDirectories ∧ Text.shown name ∉ settings.ignoredNames) ∧
          (∀ front, front <+: route → front ≠ [] → rules.excludes front = false) ∧
          (Language.ofPath? path).isSome = true := by
  obtain ⟨folders, tour⟩ := exists_tour rules located directory
  have extension (route : Route) (name : Name) (isName : isEntryName name = true) :
      Language.ofPath? (pathOf root (route ++ [name])) = Language.ofPath? name := by
    rw [pathOf_concat, Path.ofPath?_join_name _ isName]
  refine ⟨_, walk_eq_ok compiled system, fun path => ?_⟩
  rw [paths, List.mem_map]
  constructor
  · rintro ⟨route, member, rfl⟩
    obtain ⟨folder, inFolders, name, named, verdict, rfl⟩ := tour.mem_routes_iff.mp member
    obtain ⟨place, descends⟩ := (tour.entered folder inFolders).descends noLinks
    obtain ⟨⟨content, isFile⟩, notHidden, notExcluded, isSource⟩ :=
      (verdict_eq_list_of_hasNoLinks noLinks named).mp verdict
    have passes := passes_concat_iff.mpr ⟨descends.toPasses, notHidden, notExcluded⟩
    rw [place, List.append_assoc] at isFile
    refine ⟨_, content, rfl, isFile,
      fun other inRoute => isHidden_eq_false_iff.mp (passes.visible other inRoute),
      fun other inFront => ?_, passes.included, ?_⟩
    · rw [List.dropLast_concat] at inFront
      rw [← ignoredNames_of_ofSettings compiled]
      exact Rules.ignores_eq_false_iff.mp (descends.heeded other inFront)
    · rw [extension folder.route name (system.isEntryName_of_mem_names named)]
      exact isSource
  · rintro ⟨route, content, rfl, isFile, visible, heeded, included, isSource⟩
    rcases route.eq_nil_or_concat' with rfl | ⟨front, name, rfl⟩
    · rw [List.append_nil, system.hasDirectory_iff_entry?.mp directory] at isFile
      cases isFile
    · obtain ⟨passes, notHidden, notExcluded⟩ := passes_concat_iff.mp
        ⟨fun other inRoute => isHidden_eq_false_iff.mpr (visible other inRoute), included⟩
      have descends : Descends rules front := by
        refine ⟨passes, fun other inFront => Rules.ignores_eq_false_iff.mpr ?_⟩
        rw [ignoredNames_of_ofSettings compiled]
        exact heeded other (by rwa [List.dropLast_concat])
      rw [← List.append_assoc] at isFile
      obtain ⟨isDirectory, isName⟩ := system.placed_entry isFile
      obtain ⟨folder, member, rfl⟩ := tour.exists_folder_of_descends noLinks isDirectory descends
      rw [← ((tour.entered folder member).descends noLinks).1] at isFile
      have named := system.mem_names_iff.mpr ⟨_, isFile⟩
      rw [extension folder.route name isName] at isSource
      refine ⟨_, tour.mem_routes_iff.mpr ⟨folder, member, name, named, ?_, rfl⟩, rfl⟩
      exact (verdict_eq_list_of_hasNoLinks noLinks named).mpr
        ⟨⟨content, isFile⟩, notHidden, notExcluded, isSource⟩

/-- A module, a script among the documents, and a directory whose name is hidden. -/
def documentedModule : FileSystem :=
  (((((∅ : FileSystem).insert [] "src" .directory).insert [] "docs" .directory).insert
    ["src"] "app.py" (.file { bytes := [] })).insert
    ["docs"] "conf.py" (.file { bytes := [] })).insert [] ".git" .directory

/-- Settings that leave out generated code and the documents. -/
def withoutDocuments : Settings := { ignoredNames := ["generated"], excludedPaths := ["docs/*"] }

/-- The rules of these settings. -/
def documentRules : Rules :=
  ⟨["generated"],
    [[.literal 'd', .literal 'o', .literal 'c', .literal 's', .literal '/', .many]]⟩

theorem ofSettings_withoutDocuments : Rules.ofSettings withoutDocuments = .ok documentRules := by
  cbv

theorem documentedModule_hasNoLinks : documentedModule.HasNoLinks :=
  FileSystem.hasNoLinks_of_entries (by decide)

/-- The module is listed. -/
theorem documentedModule_lists_module :
    documentedModule.HasNoLinks ∧ Rules.ofSettings withoutDocuments = .ok documentRules ∧
      documentedModule.locate? "/" = some [] ∧ documentedModule.hasDirectory [] = true ∧
      ∃ paths, (Repository.mk "/" withoutDocuments).walk documentedModule = .ok paths ∧
        ("/src/app.py" : Path) ∈ paths := by
  refine ⟨documentedModule_hasNoLinks, ofSettings_withoutDocuments, documentedModule.locate?_root,
    rfl, ?_⟩
  obtain ⟨paths, walked, listed⟩ :=
    walk_lists_passing_files documentedModule documentedModule_hasNoLinks withoutDocuments
      documentRules ofSettings_withoutDocuments "/" [] documentedModule.locate?_root rfl
  refine ⟨paths, walked, (listed _).mpr ⟨["src", "app.py"], { bytes := [] }, rfl, rfl, by decide,
    by decide +kernel, fun front inside nonempty => ?_, by decide +kernel⟩⟩
  have fronts : ∀ front ∈ (["src", "app.py"] : Route).inits, front ≠ [] →
      documentRules.excludes front = false := by decide
  exact fronts front ((List.mem_inits _ _).mpr inside) nonempty

end Walk

end CodeAtlas
