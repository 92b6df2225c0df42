/-
The files that an analysis finds below its root, and the facts about them. A file is found by its
route, the names from the root to it, and its path has the names of the root before the route.
With an absolute root the file is looked for at that path and shown by its route. What is found
is there to be read, and the routes of files can be told from the facts about them as far as their
names are texts.
-/
import CodeAtlas.Proofs.Walk.Coverage

namespace CodeAtlas

open FileSystem Walk

/-! ### Files below a root -/

/-- Some names lead to a file below a root: there are some, and all can be names of entries. -/
structure IsFileRoute (route : Route) : Prop where
  nonempty : route ≠ []
  named : ∀ name ∈ route, isEntryName name = true

theorem IsFileRoute.noSlash {route : Route} (isRoute : IsFileRoute route) :
    ∀ name ∈ route, Path.slash ∉ name :=
  fun name member => (isEntryName_iff.mp (isRoute.named name member)).2.2.2

/-- A file below a root is shown by the names that lead to it. -/
theorem IsFileRoute.display_pathOf {route : Route} (isRoute : IsFileRoute route) (root : Path) :
    Path.display root (pathOf root route) = Path.showComponents route :=
  Path.display_of_components (components_pathOf root isRoute.named) isRoute.nonempty

theorem isFileRoute_of_mem_routes {system : FileSystem} {rules : Rules} {root : Path}
    {top : Location} (located : system.locate? root = some top)
    (directory : system.hasDirectory top = true) {route : Route}
    (member : route ∈ routes system rules root) : IsFileRoute route := by
  obtain ⟨folders, tour⟩ := exists_tour rules located directory
  refine ⟨?_, fun name => tour.named member name⟩
  obtain ⟨folder, -, name, -, -, rfl⟩ := tour.mem_routes_iff.mp member
  exact List.concat_ne_nil _ _

/-- A walk lists files of known languages. -/
theorem exists_language_of_mem_routes {system : FileSystem} {rules : Rules} {root : Path}
    {top : Location} (located : system.locate? root = some top)
    (directory : system.hasDirectory top = true) {route : Route}
    (member : route ∈ routes system rules root) :
    ∃ language, Language.ofPath? (pathOf root route) = some language := by
  obtain ⟨folders, tour⟩ := exists_tour rules located directory
  obtain ⟨folder, -, name, named, verdict, rfl⟩ := tour.mem_routes_iff.mp member
  obtain ⟨-, -, -, -, -, -, extension⟩ := Pending.verdict_eq_list_iff.mp verdict
  rw [pathOf_concat, Path.ofPath?_join_name _ (system.isEntryName_of_mem_names named)]
  exact Option.isSome_iff_exists.mp extension

/-- What a walk lists is a file. -/
theorem exists_file_of_mem_routes {system : FileSystem} {rules : Rules} {root : Path}
    {route : Route} (member : route ∈ routes system rules root) :
    ∃ content, system.file? (pathOf root route) = some content := by
  have opened {path : Path} {location : Location} {content : Content}
      (located : system.locate? path = some location)
      (isFile : system.entry? location = some (.file content)) :
      system.file? path = some content := by
    rw [file?, located, Option.bind_some, fileAt?, isFile]
  cases located : system.locate? root with
  | none =>
    rw [routes, located] at member
    exact absurd member List.not_mem_nil
  | some top =>
    cases directory : system.hasDirectory top with
    | true =>
      obtain ⟨folders, tour⟩ := exists_tour rules located directory
      obtain ⟨folder, inFolders, name, named, verdict, rfl⟩ := tour.mem_routes_iff.mp member
      obtain ⟨location, content, target, -, -, isFile, -⟩ := Pending.verdict_eq_list_iff.mp verdict
      have isName := system.isEntryName_of_mem_names named
      have leads := ((tour.entered folder inFolders).leadsTo located).join_name isName target
      rw [← pathOf_concat] at leads
      refine ⟨content, opened (system.locate?_eq_some_iff.mpr ⟨?_, leads⟩) isFile⟩
      rw [pathOf_concat]
      exact Path.join_name_ne_empty _ isName
    | false =>
      rw [routes, located] at member
      dsimp only at member
      rw [if_neg (by simp [directory])] at member
      split at member
      next isFile =>
        rw [List.mem_singleton.mp member, pathOf, List.foldl_nil, file?, located, Option.bind_some]
        exact Option.isSome_iff_exists.mp isFile.1
      · exact absurd member List.not_mem_nil

/-! ### The files that are found -/

namespace Repository

/-- The routes that are left when those to files that are too large and those that are too many
are taken away. -/
def kept (repository : Repository) (system : FileSystem) (routes : List Route) : List Route :=
  let small :=
    match repository.settings.maxFileSize with
    | some limit => routes.filter fun route =>
      isSmall system limit (pathOf repository.root route)
    | none => routes
  match repository.settings.maxFiles with
  | some limit => small.take limit
  | none => small

theorem discover_eq_ok {settings : Settings} {rules : Rules}
    (compiled : Rules.ofSettings settings = .ok rules) (system : FileSystem) (root : Path) :
    (Repository.mk root settings).discover system =
      .ok (((Repository.mk root settings).kept system (routes system rules root)).map
        (pathOf root)) := by
  rw [discover, walk_eq_ok compiled, paths, kept]
  cases settings.maxFileSize <;> cases settings.maxFiles <;>
    simp [List.filter_map, List.map_take, Function.comp_def]

theorem kept_sublist (repository : Repository) (system : FileSystem) (routes : List Route) :
    (repository.kept system routes).Sublist routes := by
  unfold kept
  cases repository.settings.maxFileSize <;> cases repository.settings.maxFiles <;>
    simp only [List.Sublist.refl, List.take_sublist, List.filter_sublist,
      (List.take_sublist _ _).trans List.filter_sublist]

theorem mem_of_mem_kept {repository : Repository} {system : FileSystem} {routes : List Route}
    {route : Route} (member : route ∈ repository.kept system routes) : route ∈ routes :=
  (repository.kept_sublist system routes).subset member

/-! ### The facts about them -/

theorem fileFacts?_of_absolute (system : FileSystem) {root : Path} {route : Route}
    (settings : Settings) (isRoute : IsFileRoute route) (absolute : root.isAbsolute = true) :
    (Repository.mk root settings).fileFacts? system (pathOf root route) =
      (ParsedFile.load? system (pathOf root route)).map (·.facts (Path.showComponents route)) := by
  have stays : root.join (pathOf root route) = pathOf root route := by
    rw [Path.join, if_pos (by rw [isAbsolute_pathOf root isRoute.named, absolute])]
  have shown : Path.display root (pathOf root route) = Path.showComponents route :=
    isRoute.display_pathOf root
  rw [fileFacts?, display]
  dsimp only
  rw [stays, shown]

end Repository

/-- The facts about the files at some routes, each shown by a route of its own. -/
def shownFacts (load : Route → Option ParsedFile) (shown : Route → Route) (routes : List Route) :
    List FileFacts :=
  routes.filterMap fun route => (load route).map (·.facts (Path.showComponents (shown route)))

/-- The routes by which files are shown can be read from the facts about them, with the names as
they are shown. -/
theorem map_pieces_shownFacts {load : Route → Option ParsedFile} {shown : Route → Route}
    {routes : List Route} (nonempty : ∀ route ∈ routes, shown route ≠ [])
    (noSlash : ∀ route ∈ routes, ∀ name ∈ shown route, Path.slash ∉ name) :
    (shownFacts load shown routes).map (fun file => pieces file.path) =
      (routes.filter fun route => (load route).isSome).map
        fun route => (shown route).map Path.reread := by
  induction routes with
  | nil => rfl
  | cons route rest inductionHypothesis =>
    have later := inductionHypothesis (fun other member => nonempty other (.tail _ member))
      fun other member => noSlash other (.tail _ member)
    cases loaded : load route with
    | none =>
      rw [shownFacts, List.filterMap_cons_none (by rw [loaded]; rfl),
        List.filter_cons_of_neg (by rw [loaded]; exact Bool.false_ne_true)]
      exact later
    | some file =>
      have readBack : pieces (Path.showComponents (shown route)) = (shown route).map Path.reread :=
        Path.pieces_showComponents (nonempty route (.head _)) (noSlash route (.head _))
      rw [shownFacts, List.filterMap_cons_some (by rw [loaded]; rfl),
        List.filter_cons_of_pos (by rw [loaded]; rfl), List.map_cons, List.map_cons]
      exact congr (congrArg _ readBack) later

/-- All routes that are shown by a text are of names that are texts. -/
def AreTextsAt (routes : List Route) (shown : String) : Prop :=
  ∀ route ∈ routes, Path.showComponents route = shown → ∀ name ∈ route, Text.IsText name

/-- All files at some paths that are shown by a text have names below a base that are texts. -/
def Path.ShowsTexts (base : Path) (paths : List Path) (shown : String) : Prop :=
  ∀ path ∈ paths, Path.display base path = shown →
    ∀ names, path.components = base.components ++ names → ∀ name ∈ names, Text.IsText name

theorem Path.ShowsTexts.areTextsAt {root : Path} {routes : List Route} {shown : String}
    (texts : root.ShowsTexts (routes.map (pathOf root)) shown)
    (isRoute : ∀ route ∈ routes, IsFileRoute route) : AreTextsAt routes shown := by
  intro route member isShown
  exact texts _ (List.mem_map_of_mem member) (((isRoute route member).display_pathOf root).trans
    isShown) route (components_pathOf root (isRoute route member).named)

/-- Of the facts about files at different routes, no two are shown by the same text, if the names
on all routes that are shown by it are texts. -/
theorem pairwise_shownFacts (load : Route → Option ParsedFile) {routes : List Route}
    (distinct : routes.Nodup) (isRoute : ∀ route ∈ routes, IsFileRoute route) :
    (shownFacts load id routes).Pairwise fun one other =>
      ∀ shown, AreTextsAt routes shown → one.path = shown → other.path ≠ shown := by
  refine List.pairwise_filterMap.mpr (distinct.imp_of_mem ?_)
  intro first second inFirst inSecond different one isOne other isOther shown texts oneShown
    otherShown
  obtain ⟨firstFile, -, rfl⟩ := Option.map_eq_some_iff.mp isOne
  obtain ⟨secondFile, -, rfl⟩ := Option.map_eq_some_iff.mp isOther
  refine different ?_
  exact Path.showComponents_injective (isRoute first inFirst).nonempty
    (isRoute second inSecond).nonempty (isRoute first inFirst).noSlash
    (isRoute second inSecond).noSlash (texts first inFirst oneShown)
    (texts second inSecond otherShown) (oneShown.trans otherShown.symm)

/-- The facts about the only file that is shown by a text are the only ones that it shows. -/
theorem filter_path_shownFacts (load : Route → Option ParsedFile) {routes : List Route}
    (distinct : routes.Nodup) (isRoute : ∀ route ∈ routes, IsFileRoute route) {file : FileFacts}
    (member : file ∈ shownFacts load id routes) (texts : AreTextsAt routes file.path) :
    (shownFacts load id routes).filter (·.path = file.path) = [file] := by
  have apart := pairwise_shownFacts load distinct isRoute
  obtain ⟨before, after, split⟩ := List.append_of_mem member
  rw [split, List.pairwise_append, List.pairwise_cons] at apart
  obtain ⟨-, ⟨notAfter, -⟩, notBefore⟩ := apart
  have noneBefore : before.filter (·.path = file.path) = [] :=
    List.filter_eq_nil_iff.mpr fun other inBefore same =>
      notBefore other inBefore file List.mem_cons_self _ texts (of_decide_eq_true same) rfl
  have noneAfter : after.filter (·.path = file.path) = [] :=
    List.filter_eq_nil_iff.mpr fun other inAfter same =>
      notAfter other inAfter _ texts rfl (of_decide_eq_true same)
  rw [split, List.filter_append, noneBefore, List.filter_cons_of_pos (by simp), noneAfter,
    List.nil_append]

theorem Repository.atlas_of_discover {repository : Repository} {system : FileSystem}
    {routes : List Route} {load : Route → Option ParsedFile} {shown : Route → Route}
    (found : repository.discover system = .ok (routes.map (pathOf repository.root)))
    (facts : ∀ route ∈ routes, repository.fileFacts? system (pathOf repository.root route) =
      (load route).map (·.facts (Path.showComponents (shown route)))) :
    repository.atlas system = .ok (.ofFiles (shownFacts load shown routes)) := by
  have files : repository.allFacts system (routes.map (pathOf repository.root)) =
      shownFacts load shown routes := by
    rw [Repository.allFacts, List.filterMap_map]
    exact List.filterMap_congr facts
  rw [Repository.atlas, found]
  exact congrArg (fun all => Except.ok (Atlas.ofFiles all)) files

/-- Below an absolute root different routes are found, and the files of the atlas are those at the
routes that can be analysed, shown by their routes. -/
theorem Repository.exists_found_of_absolute {system : FileSystem} {settings : Settings}
    {rules : Rules} (compiled : Rules.ofSettings settings = .ok rules) {root : Path}
    (absolute : root.isAbsolute = true) {top : Location}
    (located : system.locate? root = some top) (directory : system.hasDirectory top = true) :
    ∃ found : List Route, found.Nodup ∧ (∀ route ∈ found, IsFileRoute route ∧
        ∃ language, Language.ofPath? (pathOf root route) = some language) ∧
      (Repository.mk root settings).discover system = .ok (found.map (pathOf root)) ∧
      (Repository.mk root settings).atlas system =
        .ok (.ofFiles (shownFacts (fun route => ParsedFile.load? system (pathOf root route)) id
          found)) := by
  obtain ⟨folders, tour⟩ := exists_tour rules located directory
  have isRoute : ∀ route ∈ (Repository.mk root settings).kept system (routes system rules root),
      IsFileRoute route :=
    fun route member => isFileRoute_of_mem_routes located directory (mem_of_mem_kept member)
  have discovered := discover_eq_ok compiled system root
  refine ⟨_, (tour.nodup_routes located).sublist (kept_sublist _ _ _),
    fun route member => ⟨isRoute route member,
      exists_language_of_mem_routes located directory (mem_of_mem_kept member)⟩, discovered, ?_⟩
  exact atlas_of_discover discovered fun route member =>
    fileFacts?_of_absolute system settings (isRoute route member) absolute

end CodeAtlas
