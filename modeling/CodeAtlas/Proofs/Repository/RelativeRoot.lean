/-
Roots that are given from the working directory. A walk puts the root before the names of every
file that it lists, and a listed path that is not absolute is taken to start at the root once
more. With an absolute root a file is therefore found and shown by its names below the root.
With a relative one it is looked for below the root and the root again, and shown with the names
of the root before its own.

The same files are listed for a relative root and for the absolute path of the same directory.
The facts about them are the same when what is found one root too deep happens to be what is
there, under the same names, and as far as names are texts only then: always, if the root is the
working directory itself, and otherwise, if all that is listed can be analysed, only where nothing
is listed.
-/
import CodeAtlas.Proofs.Repository.Records

namespace CodeAtlas

open FileSystem Walk

namespace FileSystem

variable (system : FileSystem)

/-- The path of a location. -/
def pathTo (location : Location) : Path := Path.slash :: Path.joinComponents location

/-- The path from the root directory that leads where a path leads from the working directory. -/
def absolute (path : Path) : Path := (pathTo system.current).join path

theorem isAbsolute_pathTo (location : Location) : (pathTo location).isAbsolute = true := rfl

theorem pathTo_ne_empty (location : Location) : pathTo location ≠ [] := List.cons_ne_nil _ _

theorem isAbsolute_absolute {path : Path} (relative : path.isAbsolute = false) :
    (system.absolute path).isAbsolute = true := by
  rw [absolute, Path.isAbsolute_join _ path relative, isAbsolute_pathTo]

theorem absolute_ne_empty (path : Path) : system.absolute path ≠ [] :=
  Path.join_ne_empty path (pathTo_ne_empty _)

theorem namesIn_pathTo {location : Location} (directory : system.hasDirectory location = true) :
    namesIn (pathTo location) = location := by
  have named := system.isEntryName_of_hasDirectory directory
  have split : pieces (pathTo location) = [] :: pieces (Path.joinComponents location) :=
    pieces_append_slash [] _
  rw [Path.namesIn_eq_filter, split, List.filter_cons_of_neg (by decide)]
  by_cases top : location = []
  · rw [top]
    rfl
  · have noSlash : ∀ name ∈ location, Path.slash ∉ name := fun name member =>
      (isEntryName_iff.mp (named name member)).2.2.2
    rw [Path.pieces_joinComponents top noSlash]
    exact List.filter_eq_self.mpr fun name member => isStep_of_isEntryName (named name member)

/-- A path that leads somewhere from the working directory shows that the directory is there. -/
theorem hasDirectory_current {path : Path} {location : Location}
    (relative : path.isAbsolute = false) (located : system.locate? path = some location) :
    system.hasDirectory system.current = true := by
  obtain ⟨-, found⟩ := system.locate?_eq_some_iff.mp located
  rw [LeadsTo, startFrom, if_neg (by simp [relative])] at found
  obtain ⟨piece, rest, split⟩ := List.exists_cons_of_ne_nil (pieces_ne_nil path)
  cases directory : system.hasDirectory system.current with
  | true => rfl
  | false =>
    rw [split, system.follow_outside _ _ _ directory] at found
    cases found

theorem locate_of_ne_empty {path : Path} (nonempty : path ≠ []) :
    system.locate path =
      system.follow system.links (startFrom path system.current) (pieces path) := by
  rw [locate, if_neg (by simpa using nonempty)]

theorem locate_join {base path : Path} (nonempty : base ≠ [])
    (relative : path.isAbsolute = false) :
    system.locate (base.join path) =
      system.follow system.links (startFrom base system.current)
        (namesIn base ++ pieces path) := by
  rw [system.locate_of_ne_empty (Path.join_ne_empty path nonempty),
    startFrom_join base path relative]
  exact system.sameWay_join base path relative _ _

end FileSystem

/-! ### Files below a root -/

theorem pathOf_ne_empty {root : Path} (nonempty : root ≠ []) (route : Route) :
    pathOf root route ≠ [] := by
  induction route generalizing root with
  | nil => exact nonempty
  | cons name route inductionHypothesis =>
    exact inductionHypothesis (Path.join_ne_empty name nonempty)

namespace IsFileRoute

variable (system : FileSystem) {root : Path} {route : Route} (isRoute : IsFileRoute route)
include isRoute

theorem sameWay_pathOf (root : Path) :
    system.SameWay (pieces (pathOf root route)) (namesIn root ++ route) := by
  obtain ⟨nonempty, named⟩ := isRoute
  rcases route.eq_nil_or_concat' with rfl | ⟨front, name, rfl⟩
  · exact absurd rfl nonempty
  · have isName := named name (List.mem_append_right _ List.mem_cons_self)
    have below : namesIn (pathOf root front) = namesIn root ++ front :=
      namesIn_pathOf root fun other member => named other (List.mem_append_left _ member)
    rw [pathOf_concat, ← List.append_assoc, ← below, ← pieces_of_isEntryName isName]
    exact system.sameWay_join _ name (Path.isAbsolute_of_isEntryName isName)

theorem locate_pathOf (nonempty : root ≠ []) :
    system.locate (pathOf root route) =
      system.follow system.links (startFrom root system.current) (namesIn root ++ route) := by
  rw [system.locate_of_ne_empty (pathOf_ne_empty nonempty route), startFrom,
    isAbsolute_pathOf root isRoute.named]
  exact isRoute.sameWay_pathOf system root _ _

theorem locate_join_pathOf (nonempty : root ≠ []) (relative : root.isAbsolute = false) :
    system.locate (root.join (pathOf root route)) =
      system.follow system.links (startFrom root system.current)
        (namesIn root ++ (namesIn root ++ route)) := by
  have relativePath : (pathOf root route).isAbsolute = false := by
    rw [isAbsolute_pathOf root isRoute.named, relative]
  rw [system.locate_join nonempty relativePath]
  exact (isRoute.sameWay_pathOf system root).append_left system (namesIn root) _ _

theorem components_join_pathOf (nonempty : root ≠ []) (relative : root.isAbsolute = false) :
    (root.join (pathOf root route)).components = root.components ++ (namesIn root ++ route) := by
  have relativePath : (pathOf root route).isAbsolute = false := by
    rw [isAbsolute_pathOf root isRoute.named, relative]
  rw [Path.components_join root _ relativePath nonempty, namesIn_pathOf root isRoute.named]

/-- The language of a file is that of its name, whatever stands before. -/
theorem ofPath?_eq {one other : Path} {front back : List Name}
    (oneComponents : one.components = front ++ route)
    (otherComponents : other.components = back ++ route) :
    Language.ofPath? one = Language.ofPath? other := by
  obtain ⟨nonempty, named⟩ := isRoute
  rcases route.eq_nil_or_concat' with rfl | ⟨inner, name, rfl⟩
  · exact absurd rfl nonempty
  · have isName := named name (List.mem_append_right _ List.mem_cons_self)
    rw [← List.append_assoc] at oneComponents otherComponents
    rw [Path.ofPath?_of_components oneComponents isName,
      Path.ofPath?_of_components otherComponents isName]

end IsFileRoute

theorem ParsedFile.load?_congr {system : FileSystem} {one other : Path}
    (language : Language.ofPath? one = Language.ofPath? other)
    (place : system.locate one = system.locate other) :
    ParsedFile.load? system one = ParsedFile.load? system other := by
  rw [ParsedFile.load?, ParsedFile.load?, FileSystem.file?, FileSystem.file?, FileSystem.locate?,
    FileSystem.locate?, language, place]

/-! ### The files that are found, and the facts about them -/

namespace Repository

theorem kept_congr {system : FileSystem} {settings : Settings} {one other : Path}
    {routes : List Route} (same : ∀ route ∈ routes,
      system.locate (pathOf one route) = system.locate (pathOf other route)) :
    (Repository.mk one settings).kept system routes =
      (Repository.mk other settings).kept system routes := by
  have small (limit : Nat) :
      (routes.filter fun route => isSmall system limit (pathOf one route)) =
        routes.filter fun route => isSmall system limit (pathOf other route) := by
    refine List.filter_congr fun route member => ?_
    rw [isSmall, isSmall, FileSystem.file?, FileSystem.file?, FileSystem.locate?,
      FileSystem.locate?, same route member]
  simp only [kept, small]

theorem fileFacts?_of_relative (system : FileSystem) {root : Path} {route : Route}
    (settings : Settings) (isRoute : IsFileRoute route) (nonempty : root ≠ [])
    (relative : root.isAbsolute = false) :
    (Repository.mk root settings).fileFacts? system (pathOf root route) =
      (ParsedFile.load? system (root.join (pathOf root route))).map
        (·.facts (Path.showComponents (namesIn root ++ route))) := by
  have shown : Path.display root (root.join (pathOf root route)) =
      Path.showComponents (namesIn root ++ route) :=
    Path.display_of_components (isRoute.components_join_pathOf nonempty relative)
      (List.append_ne_nil_of_right_ne_nil _ isRoute.nonempty)
  rw [fileFacts?, display]
  dsimp only
  rw [shown]

end Repository

theorem shownFacts_filter (load : Route → Option ParsedFile) (shown : Route → Route)
    (routes : List Route) :
    shownFacts load shown (routes.filter fun route => (load route).isSome) =
      shownFacts load shown routes := by
  rw [shownFacts, List.filterMap_filter]
  refine List.filterMap_congr fun route _ => ?_
  cases load route <;> rfl

section Shown

variable {load deeper : Route → Option ParsedFile} {front : Route} {routes : List Route}

/-- Files that are shown by their routes have the same facts as files that are shown with some
names before their routes, when the routes by which they are shown are the same. -/
theorem shownFacts_eq (load deeper : Route → Option ParsedFile)
    (same : ∀ route ∈ routes, front ++ route ∈ routes → load (front ++ route) = deeper route)
    (equal : (routes.filter fun route => (load route).isSome) =
      (routes.filter fun route => (deeper route).isSome).map (front ++ ·)) :
    shownFacts deeper (front ++ ·) routes = shownFacts load id routes := by
  rw [← shownFacts_filter load, equal, ← shownFacts_filter deeper, shownFacts, shownFacts,
    List.filterMap_map]
  refine List.filterMap_congr fun route member => ?_
  have deeperMember : front ++ route ∈ routes := by
    have inMap : front ++ route ∈
        (routes.filter fun route => (deeper route).isSome).map (front ++ ·) :=
      List.mem_map_of_mem member
    rw [← equal] at inMap
    exact (List.mem_filter.mp inMap).1
  rw [Function.comp_apply, same route (List.mem_filter.mp member).1 deeperMember]
  rfl

/-- If the facts are the same, the routes have the same names, as they are shown. -/
theorem map_reread_of_shownFacts_eq (isRoute : ∀ route ∈ routes, IsFileRoute route)
    (noSlash : ∀ name ∈ front, Path.slash ∉ name)
    (equal : shownFacts deeper (front ++ ·) routes = shownFacts load id routes) :
    (routes.filter fun route => (load route).isSome).map (List.map Path.reread) =
      (routes.filter fun route => (deeper route).isSome).map
        fun route => (front ++ route).map Path.reread := by
  have plain : ∀ route ∈ routes, ∀ name ∈ route, Path.slash ∉ name :=
    fun route member => (isRoute route member).noSlash
  have own : (shownFacts load id routes).map (fun file => pieces file.path) =
      (routes.filter fun route => (load route).isSome).map (List.map Path.reread) :=
    map_pieces_shownFacts (fun route member => (isRoute route member).nonempty) plain
  have fronted : (shownFacts deeper (front ++ ·) routes).map (fun file => pieces file.path) =
      (routes.filter fun route => (deeper route).isSome).map
        fun route => (front ++ route).map Path.reread := by
    refine map_pieces_shownFacts (fun route member => ?_) fun route member name inRoute => ?_
    · exact List.append_ne_nil_of_right_ne_nil _ (isRoute route member).nonempty
    · rcases List.mem_append.mp inRoute with before | behind
      · exact noSlash name before
      · exact plain route member name behind
  rw [← own, ← fronted, equal]

/-- Routes of texts with the same names, as they are shown, are the same. -/
theorem filter_eq_of_map_reread {keep keepDeeper : Route → Bool}
    (frontTexts : ∀ name ∈ front, Text.IsText name)
    (texts : ∀ route ∈ routes, ∀ name ∈ route, Text.IsText name)
    (equal : (routes.filter keep).map (List.map Path.reread) =
      (routes.filter keepDeeper).map fun route => (front ++ route).map Path.reread) :
    routes.filter keep = (routes.filter keepDeeper).map (front ++ ·) := by
  have own : (routes.filter keep).map (List.map Path.reread) = routes.filter keep := by
    refine (List.map_congr_left fun route member => ?_).trans (List.map_id _)
    exact Path.map_reread_eq_iff.mpr (texts route (List.mem_filter.mp member).1)
  have fronted : ((routes.filter keepDeeper).map fun route => (front ++ route).map Path.reread) =
      (routes.filter keepDeeper).map (front ++ ·) := by
    refine List.map_congr_left fun route member => Path.map_reread_eq_iff.mpr fun name inRoute => ?_
    rcases List.mem_append.mp inRoute with before | behind
    · exact frontTexts name before
    · exact texts route (List.mem_filter.mp member).1 name behind
  rw [← own, equal, fronted]

end Shown

theorem ok_ofFiles_inj {first second : List FileFacts} :
    (Except.ok (.ofFiles first) : Except Failure Atlas) = .ok (.ofFiles second) ↔
      first = second :=
  ⟨fun equal => congrArg Atlas.files (Except.ok.inj equal), fun equal => by rw [equal]⟩

/-! ### A relative root and the absolute path of the directory -/

section RelativeRoot

variable {system : FileSystem} {root : Path} {top : Location}
  (relative : root.isAbsolute = false) (located : system.locate? root = some top)
include relative located

theorem locate_absolute : system.locate (system.absolute root) = system.locate root := by
  have current := system.hasDirectory_current relative located
  obtain ⟨nonempty, -⟩ := system.locate?_eq_some_iff.mp located
  rw [FileSystem.absolute, system.locate_join (pathTo_ne_empty _) relative,
    system.namesIn_pathTo current, system.locate_of_ne_empty nonempty, startFrom, startFrom,
    if_pos (isAbsolute_pathTo _), if_neg (by simp [relative])]
  exact system.follow_hasDirectory _ _ current

theorem IsFileRoute.locate_absolute {route : Route} (isRoute : IsFileRoute route) :
    system.locate (pathOf (system.absolute root) route) = system.locate (pathOf root route) := by
  have current := system.hasDirectory_current relative located
  obtain ⟨nonempty, -⟩ := system.locate?_eq_some_iff.mp located
  have names : namesIn (system.absolute root) = system.current ++ namesIn root := by
    rw [FileSystem.absolute, Path.namesIn_join _ root relative, system.namesIn_pathTo current]
  rw [isRoute.locate_pathOf system (system.absolute_ne_empty root),
    isRoute.locate_pathOf system nonempty, startFrom, startFrom,
    if_pos (system.isAbsolute_absolute relative), if_neg (by simp [relative]), names,
    List.append_assoc]
  exact system.follow_hasDirectory _ _ current

theorem IsFileRoute.load?_absolute {route : Route} (isRoute : IsFileRoute route) :
    ParsedFile.load? system (pathOf (system.absolute root) route) =
      ParsedFile.load? system (pathOf root route) :=
  ParsedFile.load?_congr
    (isRoute.ofPath?_eq (components_pathOf _ isRoute.named) (components_pathOf _ isRoute.named))
    (isRoute.locate_absolute relative located)

/-- The file below the root and the root again is the one at the longer route. -/
theorem IsFileRoute.load?_deeper {route : Route} (isRoute : IsFileRoute route)
    (deeper : IsFileRoute (namesIn root ++ route)) :
    ParsedFile.load? system (pathOf root (namesIn root ++ route)) =
      ParsedFile.load? system (root.join (pathOf root route)) := by
  obtain ⟨nonempty, -⟩ := system.locate?_eq_some_iff.mp located
  refine ParsedFile.load?_congr (deeper.ofPath?_eq (components_pathOf root deeper.named)
    (isRoute.components_join_pathOf nonempty relative)) ?_
  rw [deeper.locate_pathOf system nonempty, isRoute.locate_join_pathOf system nonempty relative]

/-- The same routes are found below the root and below its absolute path. -/
theorem exists_found {settings : Settings} {rules : Rules}
    (compiled : Rules.ofSettings settings = .ok rules)
    (directory : system.hasDirectory top = true) :
    ∃ found : List Route, (∀ route ∈ found, IsFileRoute route) ∧
      (Repository.mk root settings).discover system = .ok (found.map (pathOf root)) ∧
      (Repository.mk (system.absolute root) settings).discover system =
        .ok (found.map (pathOf (system.absolute root))) := by
  have isRoute : ∀ route ∈ routes system rules root, IsFileRoute route :=
    fun route => isFileRoute_of_mem_routes located directory
  have sameRoutes : routes system rules (system.absolute root) = routes system rules root := by
    rw [routes, routes, FileSystem.locate?, locate_absolute relative located,
      ← FileSystem.locate?, located]
    dsimp only
    rw [if_pos directory, if_pos directory]
  have sameKept : (Repository.mk (system.absolute root) settings).kept system
        (routes system rules (system.absolute root)) =
      (Repository.mk root settings).kept system (routes system rules root) := by
    rw [sameRoutes]
    exact Repository.kept_congr fun route member =>
      (isRoute route member).locate_absolute relative located
  refine ⟨(Repository.mk root settings).kept system (routes system rules root),
    fun route member => isRoute route (Repository.mem_of_mem_kept member),
    Repository.discover_eq_ok compiled system root, ?_⟩
  rw [Repository.discover_eq_ok compiled system, sameKept]

theorem atlas_eq_iff_of_discover {settings : Settings} {found : List Route}
    (isRoute : ∀ route ∈ found, IsFileRoute route)
    (discovered : (Repository.mk root settings).discover system = .ok (found.map (pathOf root)))
    (discoveredAbsolute : (Repository.mk (system.absolute root) settings).discover system =
      .ok (found.map (pathOf (system.absolute root)))) :
    (Repository.mk root settings).atlas system =
        (Repository.mk (system.absolute root) settings).atlas system ↔
      shownFacts (fun route => ParsedFile.load? system (root.join (pathOf root route)))
          (namesIn root ++ ·) found =
        shownFacts (fun route => ParsedFile.load? system (pathOf root route)) id found := by
  obtain ⟨nonempty, -⟩ := system.locate?_eq_some_iff.mp located
  have atlas : (Repository.mk root settings).atlas system =
      .ok (.ofFiles (shownFacts
        (fun route => ParsedFile.load? system (root.join (pathOf root route)))
        (namesIn root ++ ·) found)) :=
    Repository.atlas_of_discover discovered fun route member =>
      Repository.fileFacts?_of_relative system settings (isRoute route member) nonempty relative
  have atlasAbsolute : (Repository.mk (system.absolute root) settings).atlas system =
      .ok (.ofFiles (shownFacts (fun route => ParsedFile.load? system (pathOf root route)) id
        found)) := by
    refine Repository.atlas_of_discover discoveredAbsolute fun route member => ?_
    rw [Repository.fileFacts?_of_absolute system settings (isRoute route member)
      (system.isAbsolute_absolute relative), (isRoute route member).load?_absolute relative located]
    rfl
  rw [atlas, atlasAbsolute, ok_ofFiles_inj]

end RelativeRoot

/-- Routes that all are shown like other such routes behind some names are none. -/
theorem eq_nil_of_eq_map_append {routes : List Route} {front : Route} {keep : Route → Bool}
    (named : front ≠ [])
    (same : routes.map (List.map Path.reread) =
      (routes.filter keep).map fun route => (front ++ route).map Path.reread) :
    routes = [] := by
  have shorter (length : Nat) : ∀ route ∈ routes, route.length ≠ length := by
    induction length using Nat.strongRecOn with
    | ind length inductionHypothesis =>
      rintro route member rfl
      have inMap := List.mem_map_of_mem (f := List.map Path.reread) member
      rw [same] at inMap
      obtain ⟨inner, inFilter, alike⟩ := List.mem_map.mp inMap
      have lengths := congrArg List.length alike
      rw [List.length_map, List.length_map, List.length_append] at lengths
      have positive := List.length_pos_of_ne_nil named
      exact inductionHypothesis inner.length (by omega) inner (List.mem_filter.mp inFilter).1 rfl
  exact List.eq_nil_iff_forall_not_mem.mpr fun route member => shorter _ route member rfl

/-- The same routes are found below a relative root and below the absolute path of the same
directory. The two atlases are the same when the files that can be analysed there are, in order,
those with the names of the root before a route at which a file can be analysed below the root and
the root again; where all these names are texts, they are the same only then. That is so if the
root has no names; if it has some and every file that is found can be analysed, the atlases are the
same only if nothing is found. -/
theorem atlas_eq_absolute_iff (system : FileSystem) (settings : Settings) (rules : Rules)
    (compiled : Rules.ofSettings settings = .ok rules) (root : Path)
    (relative : root.isAbsolute = false) (top : Location)
    (located : system.locate? root = some top) (directory : system.hasDirectory top = true) :
    system.locate? (system.absolute root) = some top ∧
      ∃ found : List Route,
        (Repository.mk root settings).discover system = .ok (found.map (pathOf root)) ∧
        (Repository.mk (system.absolute root) settings).discover system =
          .ok (found.map (pathOf (system.absolute root))) ∧
        ((found.filter fun route => (ParsedFile.load? system (pathOf root route)).isSome) =
            (found.filter fun route =>
              (ParsedFile.load? system (root.join (pathOf root route))).isSome).map
                (namesIn root ++ ·) →
          (Repository.mk root settings).atlas system =
            (Repository.mk (system.absolute root) settings).atlas system) ∧
        ((∀ name ∈ namesIn root, Text.IsText name) →
          (∀ route ∈ found, ∀ name ∈ route, Text.IsText name) →
          ((Repository.mk root settings).atlas system =
              (Repository.mk (system.absolute root) settings).atlas system ↔
            (found.filter fun route => (ParsedFile.load? system (pathOf root route)).isSome) =
              (found.filter fun route =>
                (ParsedFile.load? system (root.join (pathOf root route))).isSome).map
                  (namesIn root ++ ·))) ∧
        (namesIn root = [] →
          (Repository.mk root settings).atlas system =
            (Repository.mk (system.absolute root) settings).atlas system) ∧
        (namesIn root ≠ [] →
          (∀ route ∈ found, (ParsedFile.load? system (pathOf root route)).isSome = true) →
          ((Repository.mk root settings).atlas system =
              (Repository.mk (system.absolute root) settings).atlas system ↔
            found = [])) := by
  have same : system.locate? (system.absolute root) = some top := by
    rw [FileSystem.locate?, locate_absolute relative located]
    exact located
  obtain ⟨found, isRoute, discovered, discoveredAbsolute⟩ :=
    exists_found relative located compiled directory
  have noSlash : ∀ name ∈ namesIn root, Path.slash ∉ name := by
    intro name member
    rw [Path.namesIn_eq_filter] at member
    exact not_mem_of_mem_pieces (List.mem_filter.mp member).1
  have facts := atlas_eq_iff_of_discover relative located isRoute discovered discoveredAbsolute
  have enough := shownFacts_eq (fun route => ParsedFile.load? system (pathOf root route))
    (fun route => ParsedFile.load? system (root.join (pathOf root route)))
    fun route member deeperMember =>
      (isRoute route member).load?_deeper relative located (isRoute _ deeperMember)
  rw [facts]
  refine ⟨same, found, discovered, discoveredAbsolute, enough, fun rootTexts texts => ?_,
    fun noNames => enough ?_, fun names analysed => ?_⟩
  · refine ⟨fun equal => ?_, enough⟩
    exact filter_eq_of_map_reread rootTexts texts
      (map_reread_of_shownFacts_eq isRoute noSlash equal)
  · have loads : ∀ route ∈ found, ParsedFile.load? system (pathOf root route) =
        ParsedFile.load? system (root.join (pathOf root route)) := by
      intro route member
      have deeper : namesIn root ++ route = route := by rw [noNames, List.nil_append]
      rw [← (isRoute route member).load?_deeper relative located
        (deeper.symm ▸ isRoute route member), deeper]
    rw [noNames]
    refine Eq.trans ?_ (List.map_id _).symm
    exact List.filter_congr fun route member => by rw [loads route member]
  · constructor
    · intro equal
      have alike := map_reread_of_shownFacts_eq isRoute noSlash equal
      rw [List.filter_eq_self.mpr analysed] at alike
      exact eq_nil_of_eq_map_append names alike
    · rintro rfl
      rfl

/-- A directory with a module in it. -/
def moduleInDirectory : FileSystem :=
  ((∅ : FileSystem).insert [] "repo" .directory).insert ["repo"] "a.py"
    (.file (pythonContent [0x78] (.node ⟨"module", true, none, 0, 1⟩ [])))

theorem moduleInDirectory_locate? :
    moduleInDirectory.locate? "repo" = some [("repo" : Name)] := by
  have found : moduleInDirectory.entry? ([] ++ [("repo" : Name)]) = some .directory := rfl
  have target := moduleInDirectory.target?_of_not_link found rfl
  exact moduleInDirectory.locate?_eq_some_iff.mpr
    ⟨by decide, moduleInDirectory.target?_eq_some_iff.mp target⟩

theorem moduleInDirectory_target? :
    moduleInDirectory.target? ["repo"] "a.py" = some (["repo", "a.py"] : Location) := by
  have found : moduleInDirectory.entry? ([("repo" : Name)] ++ [("a.py" : Name)]) =
      some (.file _) := rfl
  exact moduleInDirectory.target?_of_not_link found rfl

theorem moduleInDirectory_routes :
    routes moduleInDirectory {} "repo" = ([["a.py"]] : List Route) := by
  have names : moduleInDirectory.names ["repo"] = [("a.py" : Name)] :=
    List.mergeSort_singleton _
  have verdict : (⟨.top ["repo"], "a.py"⟩ : Pending).verdict moduleInDirectory {} = .list :=
    Pending.verdict_of_source rfl (by decide) (Path.ofPath?_eq_python (by decide))
  have pending : inside moduleInDirectory (.top ["repo"]) = [⟨.top ["repo"], "a.py"⟩] :=
    congrArg (List.map _) names
  rw [routes, moduleInDirectory_locate?]
  dsimp only
  rw [if_pos (by decide), pending]
  exact (Runs.list verdict (.done _)).run_eq

theorem moduleInDirectory_discover :
    (Repository.mk "repo" {}).discover moduleInDirectory = .ok [("repo/a.py" : Path)] := by
  have compiled : Rules.ofSettings {} = .ok {} := rfl
  rw [Repository.discover_eq_ok compiled, moduleInDirectory_routes]
  rfl

theorem moduleInDirectory_load? :
    (ParsedFile.load? moduleInDirectory "repo/a.py").isSome = true := by
  have located : moduleInDirectory.locate? "repo/a.py" = some (["repo", "a.py"] : Location) := by
    refine moduleInDirectory.locate?_eq_some_iff.mpr ⟨by decide, ?_⟩
    have directory : moduleInDirectory.hasDirectory ["repo"] = true := rfl
    exact (moduleInDirectory.follow_hasDirectory moduleInDirectory.links [("a.py" : Name)]
      directory).trans (moduleInDirectory.target?_eq_some_iff.mp moduleInDirectory_target?)
  have content : moduleInDirectory.file? "repo/a.py" =
      some (pythonContent [0x78] (.node ⟨"module", true, none, 0, 1⟩ [])) := by
    rw [FileSystem.file?, located]
    rfl
  refine Option.isSome_iff_exists.mpr ⟨_, ParsedFile.load?_eq_some_iff.mpr
    ⟨.python, _, _, Path.ofPath?_eq_python (by decide), content, by decide +kernel, rfl, rfl⟩⟩

/-- The atlas of the directory by its name is not the one by its absolute path. -/
theorem moduleInDirectory_atlas_ne_absolute :
    Rules.ofSettings {} = .ok {} ∧ Path.isAbsolute "repo" = false ∧
      moduleInDirectory.locate? "repo" = some [("repo" : Name)] ∧
      moduleInDirectory.hasDirectory ["repo"] = true ∧
      moduleInDirectory.absolute "repo" = "/repo" ∧
      (Repository.mk "repo" {}).atlas moduleInDirectory ≠
        (Repository.mk "/repo" {}).atlas moduleInDirectory := by
  have located := moduleInDirectory_locate?
  refine ⟨rfl, by decide, located, rfl, rfl, ?_⟩
  obtain ⟨-, found, discovered, -, -, -, -, analysed⟩ :=
    atlas_eq_absolute_iff moduleInDirectory {} {} rfl "repo" (by decide) ["repo"] located rfl
  rw [moduleInDirectory_discover] at discovered
  obtain ⟨route, rfl, path⟩ := List.map_eq_singleton_iff.mp (Except.ok.inj discovered).symm
  intro equal
  have loaded : ∀ other ∈ [route],
      (ParsedFile.load? moduleInDirectory (pathOf "repo" other)).isSome = true := by
    intro other member
    rw [List.mem_singleton.mp member, path]
    exact moduleInDirectory_load?
  cases (analysed (by decide) loaded).mp equal

end CodeAtlas
