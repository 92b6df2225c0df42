/-
What a walk loses where links and excluded paths meet. Several routes can lead to one directory,
and whether an entry of it is excluded depends on the route. A directory is entered once, though,
and the route on which it is entered decides for all others. What is excluded on that route is
not looked for again: a source that could be listed on another route is lost, and so is what
lies below a directory that could be entered on another route.

Nothing else is lost. A source that some route lets pass is listed, unless the walk came to a
directory on that route by another one, on which the next name is excluded.
-/
import CodeAtlas.Proofs.Walk.Selection

namespace CodeAtlas.Walk

/-- Names lead from the top of a walk, through directories and links to them, to a directory. -/
inductive Way (system : FileSystem) (top : Location) : Route → Location → Prop
  | top : Way system top [] top
  | next {route : Route} {directory location : Location} {name : Name} :
      Way system top route directory → name ∈ system.names directory →
      system.target? directory name = some location → system.hasDirectory location = true →
      Way system top (route ++ [name]) location

/-- A route is cut off: one of its directories is among those that a walk entered, but on another
route, and on that one the next name is excluded. -/
def CutOff (system : FileSystem) (rules : Rules) (top : Location) (folders : List Folder)
    (route : Route) : Prop :=
  ∃ front next rest, route = front ++ next :: rest ∧
    ∃ folder ∈ folders, Way system top front folder.location ∧
      rules.excludes (front ++ [next]) = false ∧ rules.excludes (folder.route ++ [next]) = true

variable {system : FileSystem} {rules : Rules} {top : Location} {folders : List Folder}
  {route : Route}

theorem CutOff.concat (cut : CutOff system rules top folders route) (name : Name) :
    CutOff system rules top folders (route ++ [name]) := by
  obtain ⟨front, next, rest, rfl, other⟩ := cut
  exact ⟨front, next, rest ++ [name], by rw [List.append_assoc, List.cons_append], other⟩

/-- An entry that is not excluded on one route can be looked for in a directory that was entered
on another, unless the first one is cut off there. -/
theorem included_or_cutOff {folder : Folder} (member : folder ∈ folders)
    (way : Way system top route folder.location) {name : Name}
    (included : rules.excludes (route ++ [name]) = false) :
    rules.excludes (folder.route ++ [name]) = false ∨
      CutOff system rules top folders (route ++ [name]) := by
  cases excluded : rules.excludes (folder.route ++ [name]) with
  | false => exact .inl rfl
  | true => exact .inr ⟨route, name, [], rfl, folder, member, way, included, excluded⟩

theorem Descends.of_prefix {front : Route} (descends : Descends rules route)
    (inside : front <+: route) : Descends rules front where
  visible name member := descends.visible name (inside.subset member)
  included other within := descends.included other (within.trans inside)
  heeded name member := descends.heeded name (inside.subset member)

/-- A directory is entered on a way to it that can be walked down. -/
theorem Entered.way {folder : Folder} (entered : Entered system rules top folder) :
    Way system top folder.route folder.location ∧ Descends rules folder.route := by
  induction entered with
  | top => exact ⟨.top, descends_nil rules⟩
  | next _ named verdict inductionHypothesis =>
    obtain ⟨way, descends⟩ := inductionHypothesis
    obtain ⟨target, -, notSkipped, directory, notIgnored⟩ :=
      Pending.verdict_eq_enter_iff.mp verdict
    obtain ⟨visible, included⟩ := isSkipped_eq_false_iff.mp notSkipped
    exact ⟨way.next named target directory,
      descends_concat_iff.mpr ⟨descends, visible, included, notIgnored⟩⟩

section Tour

variable {routes : List Route} (tour : Tour system rules top routes folders)
include tour

/-- What an entry of an entered directory leads to is entered, on whatever route, if the entry
passes on the route on which its directory was entered. -/
theorem Tour.exists_folder_of_passes {folder : Folder} (member : folder ∈ folders) {name : Name}
    (named : name ∈ system.names folder.location) {location : Location}
    (target : system.target? folder.location name = some location)
    (directory : system.hasDirectory location = true) (visible : isHidden name = false)
    (heeded : rules.ignores name = false)
    (included : rules.excludes (folder.route ++ [name]) = false) :
    ∃ other ∈ folders, other.location = location := by
  cases loop : (⟨folder, name⟩ : Pending).isLoop system location with
  | true =>
    rw [Pending.isLoop, Bool.and_eq_true, List.contains_iff_mem] at loop
    exact tour.around folder member location loop.2
  | false =>
    refine tour.closed folder member name named location ?_
    exact Pending.verdict_eq_enter_iff.mpr
      ⟨target, loop, isSkipped_eq_false_iff.mpr ⟨visible, included⟩, directory, heeded⟩

/-- A directory at the end of a way that can be walked down is entered, on whatever route, unless
the way is cut off. -/
theorem Tour.exists_folder_or_cutOff {location : Location} (way : Way system top route location)
    (descends : Descends rules route) :
    (∃ folder ∈ folders, folder.location = location) ∨ CutOff system rules top folders route := by
  induction way with
  | top => exact .inl ⟨_, tour.top_mem, rfl⟩
  | @next route directory location name way named target isDirectory inductionHypothesis =>
    obtain ⟨descendsFront, visible, included, heeded⟩ := descends_concat_iff.mp descends
    rcases inductionHypothesis descendsFront with ⟨folder, member, rfl⟩ | cut
    · exact (included_or_cutOff member way included).imp_left
        (tour.exists_folder_of_passes member named target isDirectory visible heeded)
    · exact .inr (cut.concat name)

/-- A source is listed by some path exactly if its directory is entered, and it is not excluded
on the route on which that happened. -/
theorem Tour.exists_path_iff {root : Path} (located : system.locate? root = some top)
    (directory : system.hasDirectory top = true) {location : Location} {name : Name}
    (source : IsSourceEntry system location name) :
    (∃ path ∈ routes.map (pathOf root), system.Denotes path location name) ↔
      ∃ folder ∈ folders, folder.location = location ∧
        rules.excludes (folder.route ++ [name]) = false := by
  constructor
  · rintro ⟨path, listed, denotes⟩
    obtain ⟨route, inRoutes, rfl⟩ := List.mem_map.mp listed
    obtain ⟨folder, member, second, named, verdict, rfl⟩ := tour.mem_routes_iff.mp inRoutes
    obtain ⟨same, rfl⟩ := denotes.unique (tour.denotes located member named)
    exact ⟨folder, member, same.symm,
      ((tour.verdict_eq_list_iff_included directory member named).mp verdict).2⟩
  · rintro ⟨folder, member, rfl, included⟩
    have verdict :=
      (tour.verdict_eq_list_iff_included directory member source.named).mpr ⟨source, included⟩
    have listed := tour.mem_routes_iff.mpr ⟨folder, member, name, source.named, verdict, rfl⟩
    exact ⟨_, List.mem_map_of_mem listed, tour.denotes located member source.named⟩

end Tour

/-- A walk enters a directory on one way at most, one that can be walked down. It lists a source
exactly if it is not excluded on the way on which its directory was entered. A source that some
way lets pass is therefore listed, by one path or another, unless that way is cut off; none is
lost if whatever is excluded on one way to a directory is excluded on all. -/
theorem walk_lists_unless_cut_off (system : FileSystem) (settings : Settings) (rules : Rules)
    (compiled : Rules.ofSettings settings = .ok rules) (root : Path) (top : Location)
    (located : system.locate? root = some top) (directory : system.hasDirectory top = true) :
    ∃ paths folders, (Repository.mk root settings).walk system = .ok paths ∧
      (folders.map Folder.location).Nodup ∧
      (∀ folder ∈ folders,
        Way system top folder.route folder.location ∧ Descends rules folder.route) ∧
      (∀ location name, IsSourceEntry system location name →
        ((∃ path ∈ paths, system.Denotes path location name) ↔
          ∃ folder ∈ folders, folder.location = location ∧
            rules.excludes (folder.route ++ [name]) = false)) ∧
      (∀ route location name, Way system top route location → Descends rules route →
        IsSourceEntry system location name → rules.excludes (route ++ [name]) = false →
        (∃ path ∈ paths, system.Denotes path location name) ∨
          CutOff system rules top folders (route ++ [name])) ∧
      ((∀ one other location, Way system top one location → Descends rules one →
          Way system top other location → Descends rules other →
          ∀ name, rules.excludes (one ++ [name]) = rules.excludes (other ++ [name])) →
        ∀ route location name, Way system top route location → Descends rules route →
          IsSourceEntry system location name → rules.excludes (route ++ [name]) = false →
          ∃ path ∈ paths, system.Denotes path location name) := by
  obtain ⟨folders, tour⟩ := exists_tour rules located directory
  have listed (location : Location) (name : Name) (source : IsSourceEntry system location name) :=
    tour.exists_path_iff located directory source
  have passes (route : Route) (location : Location) (name : Name)
      (way : Way system top route location) (descends : Descends rules route)
      (source : IsSourceEntry system location name)
      (included : rules.excludes (route ++ [name]) = false) :
      (∃ path ∈ paths system rules root, system.Denotes path location name) ∨
        CutOff system rules top folders (route ++ [name]) := by
    rcases tour.exists_folder_or_cutOff way descends with ⟨folder, member, rfl⟩ | cut
    · exact (included_or_cutOff member way included).imp_left fun entered =>
        (listed _ _ source).mpr ⟨folder, member, rfl, entered⟩
    · exact .inr (cut.concat name)
  refine ⟨_, folders, walk_eq_ok compiled system, tour.distinct,
    fun folder member => (tour.entered folder member).way, listed, passes, ?_⟩
  intro alike route location name way descends source included
  refine (passes route location name way descends source included).resolve_right ?_
  rintro ⟨front, next, rest, split, folder, member, frontWay, frontIncluded, excluded⟩
  have within : front <+: route ++ [name] := ⟨next :: rest, split.symm⟩
  have shorter : front.length ≤ route.length := by
    have lengths := congrArg List.length split
    simp only [List.length_append, List.length_cons, List.length_nil] at lengths
    omega
  have descendsFront : Descends rules front :=
    descends.of_prefix (List.prefix_of_prefix_length_le within (List.prefix_append _ _) shorter)
  obtain ⟨folderWay, folderDescends⟩ := (tour.entered folder member).way
  rw [← alike front folder.route folder.location frontWay descendsFront folderWay folderDescends,
    frontIncluded] at excluded
  cases excluded

/-- A package with a link beside it that leads to it. -/
def aliasedPackage : FileSystem :=
  (((∅ : FileSystem).insert [] "pkg" .directory).insert
    ["pkg"] "mod.py" (.file { bytes := [] })).insert [] "alias" (.link "pkg")

/-- Settings that leave out what is found through the link. -/
def withoutAlias : Settings := { excludedPaths := ["alias/*"] }

/-- The rules of these settings. -/
def aliasRules : Rules :=
  ⟨[], [[.literal 'a', .literal 'l', .literal 'i', .literal 'a', .literal 's', .literal '/',
    .many]]⟩

theorem ofSettings_withoutAlias : Rules.ofSettings withoutAlias = .ok aliasRules := by
  cbv

theorem aliasedPackage_way : Way aliasedPackage [] ["pkg"] ["pkg"] := by
  have found : aliasedPackage.entry? ([] ++ [("pkg" : Name)]) = some .directory := rfl
  exact Way.top.next (aliasedPackage.mem_names_iff.mpr ⟨_, found⟩)
    (aliasedPackage.target?_of_not_link found rfl) rfl

theorem aliasedPackage_descends : Descends aliasRules ["pkg"] :=
  descends_concat_iff.mpr
    ⟨descends_nil aliasRules, by decide +kernel, by decide, by decide +kernel⟩

theorem aliasedPackage_source : IsSourceEntry aliasedPackage ["pkg"] "mod.py" := by
  have found : aliasedPackage.entry? ([("pkg" : Name)] ++ [("mod.py" : Name)]) =
      some (.file { bytes := [] }) := rfl
  exact ⟨aliasedPackage.mem_names_iff.mpr ⟨_, found⟩, by decide, by decide +kernel, _, _,
    aliasedPackage.target?_of_not_link found rfl, found⟩

/-- The package is entered through the link, where its module is excluded, and its own name leads
to a directory that has been entered. -/
theorem aliasedPackage_routes : routes aliasedPackage aliasRules "/" = [] := by
  have names : aliasedPackage.names [] = (["alias", "pkg"] : List Name) :=
    List.mergeSort_of_pairwise (by decide)
  have namesInside : aliasedPackage.names ["pkg"] = [("mod.py" : Name)] :=
    List.mergeSort_singleton _
  have found : aliasedPackage.entry? ([] ++ [("pkg" : Name)]) = some .directory := rfl
  have target : aliasedPackage.target? [] "alias" = some [("pkg" : Name)] :=
    aliasedPackage.target?_of_link_beside rfl found rfl
  have byLink : (⟨.top [], "alias"⟩ : Pending).verdict aliasedPackage aliasRules =
      .enter ["pkg"] :=
    Pending.verdict_eq_enter_iff.mpr ⟨target, by decide, by decide +kernel, rfl, by decide +kernel⟩
  have excluded : (⟨(Folder.top []).below "alias" ["pkg"], "mod.py"⟩ : Pending).verdict
      aliasedPackage aliasRules = .pass := Pending.verdict_of_isSkipped (by decide +kernel)
  have byName : (⟨.top [], "pkg"⟩ : Pending).verdict aliasedPackage aliasRules =
      .enter ["pkg"] :=
    Pending.verdict_eq_enter_iff.mpr ⟨aliasedPackage.target?_of_not_link found rfl, by decide,
      by decide +kernel, rfl, by decide +kernel⟩
  have pending : inside aliasedPackage (.top []) = [⟨.top [], "alias"⟩, ⟨.top [], "pkg"⟩] :=
    congrArg (List.map _) names
  have pendingInside : inside aliasedPackage ((Folder.top []).below "alias" ["pkg"]) =
      [⟨(Folder.top []).below "alias" ["pkg"], "mod.py"⟩] := congrArg (List.map _) namesInside
  have later : Runs aliasedPackage aliasRules (([["pkg"]] : List Location).erase ["pkg"])
      (inside aliasedPackage ((Folder.top []).below "alias" ["pkg"]) ++ [⟨.top [], "pkg"⟩])
      [] [] := by
    rw [pendingInside]
    exact .pass excluded (.seen byName (by decide) (.done _))
  rw [routes, aliasedPackage.locate?_root]
  dsimp only
  rw [if_pos (by decide), pending]
  exact (Runs.enter byLink List.mem_cons_self later).run_eq

/-- The module is not listed by any path, though no path but the one through the link is
excluded. -/
theorem aliasedPackage_loses_module :
    Rules.ofSettings withoutAlias = .ok aliasRules ∧ aliasedPackage.locate? "/" = some [] ∧
      aliasedPackage.hasDirectory [] = true ∧ Way aliasedPackage [] ["pkg"] ["pkg"] ∧
      Descends aliasRules ["pkg"] ∧ IsSourceEntry aliasedPackage ["pkg"] "mod.py" ∧
      aliasRules.excludes ["pkg", "mod.py"] = false ∧
      ∃ paths folders, (Repository.mk "/" withoutAlias).walk aliasedPackage = .ok paths ∧
        (∀ path ∈ paths, ¬ aliasedPackage.Denotes path ["pkg"] "mod.py") ∧
        CutOff aliasedPackage aliasRules [] folders ["pkg", "mod.py"] := by
  have included : aliasRules.excludes ["pkg", "mod.py"] = false := by decide
  refine ⟨ofSettings_withoutAlias, aliasedPackage.locate?_root, rfl, aliasedPackage_way,
    aliasedPackage_descends, aliasedPackage_source, included, ?_⟩
  obtain ⟨paths, folders, walked, -, -, -, passes, -⟩ :=
    walk_lists_unless_cut_off aliasedPackage withoutAlias aliasRules ofSettings_withoutAlias "/" []
      aliasedPackage.locate?_root rfl
  have nothing : paths = [] := by
    rw [walk_eq_ok ofSettings_withoutAlias, Walk.paths, aliasedPackage_routes] at walked
    exact (Except.ok.inj walked).symm
  subst nothing
  refine ⟨[], folders, walked, fun _ member => absurd member List.not_mem_nil, ?_⟩
  refine (passes ["pkg"] ["pkg"] "mod.py" aliasedPackage_way aliasedPackage_descends
    aliasedPackage_source included).resolve_left ?_
  rintro ⟨_, member, _⟩
  exact List.not_mem_nil member

end CodeAtlas.Walk
