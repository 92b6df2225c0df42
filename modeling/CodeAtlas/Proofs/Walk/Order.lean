/-
The order of a walk. The paths that a walk lists ascend, name by name from the root, and names
are compared by their bytes: what is in a directory stands at the place of the directory. That is
so because pending entries part from one another: what is found below one of them comes before
the others, through whatever links it is found.

The order in which a file system keeps the entries of a directory does not count. The names in a
directory are looked at in ascending order, and which directories have been entered before depends
on nothing else.
-/
import CodeAtlas.Proofs.FileSystem.Agreement
import CodeAtlas.Proofs.Walk.Coverage

namespace CodeAtlas.Walk

variable {system : FileSystem} {rules : Rules}

/-! ### Ascending routes -/

/-- The entries of a directory part from one another. -/
theorem pairwise_inside (system : FileSystem) (folder : Folder) :
    (inside system folder).Pairwise fun first second => PartsBefore first.route second.route :=
  List.pairwise_map.mpr ((system.pairwise_names folder.location).imp
    fun less => partsBefore_concat folder.route less)

theorem prefix_route_of_mem_inside {entry inner : Pending} {location : Location}
    (member : inner ∈ inside system (entry.folder.below entry.name location)) :
    entry.route <+: inner.route := by
  rw [Pending.route, Pending.route, (mem_inside_iff.mp member).1]
  exact List.prefix_append _ _

section Runs

variable {fresh : List Location} {pending : List Pending} {routes : List Route}
  {folders : List Folder} (runs : Runs system rules fresh pending routes folders)
include runs

/-- What a run lists is pending or below something pending. -/
theorem Runs.exists_front {route : Route} (member : route ∈ routes) :
    ∃ entry ∈ pending, entry.route <+: route := by
  induction runs with
  | done fresh => cases member
  | pass _ _ inductionHypothesis =>
    obtain ⟨entry, inRest, below⟩ := inductionHypothesis member
    exact ⟨entry, List.mem_cons_of_mem _ inRest, below⟩
  | @list fresh entry rest routes folders _ _ inductionHypothesis =>
    rcases List.mem_cons.mp member with rfl | member
    · exact ⟨entry, List.mem_cons_self, List.prefix_refl _⟩
    · obtain ⟨other, inRest, below⟩ := inductionHypothesis member
      exact ⟨other, List.mem_cons_of_mem _ inRest, below⟩
  | seen _ _ _ inductionHypothesis =>
    obtain ⟨entry, inRest, below⟩ := inductionHypothesis member
    exact ⟨entry, List.mem_cons_of_mem _ inRest, below⟩
  | @enter fresh entry rest routes folders location _ _ _ inductionHypothesis =>
    obtain ⟨other, inPending, below⟩ := inductionHypothesis member
    rcases List.mem_append.mp inPending with inner | inRest
    · exact ⟨entry, List.mem_cons_self, (prefix_route_of_mem_inside inner).trans below⟩
    · exact ⟨other, List.mem_cons_of_mem _ inRest, below⟩

/-- The routes that a run lists part from one another, if the pending entries do. -/
theorem Runs.pairwise
    (parts : pending.Pairwise fun first second => PartsBefore first.route second.route) :
    routes.Pairwise PartsBefore := by
  induction runs with
  | done fresh => exact .nil
  | pass _ _ inductionHypothesis => exact inductionHypothesis parts.of_cons
  | list _ runs inductionHypothesis =>
    obtain ⟨entryParts, restParts⟩ := List.pairwise_cons.mp parts
    refine List.pairwise_cons.mpr ⟨fun route member => ?_, inductionHypothesis restParts⟩
    obtain ⟨other, inRest, below⟩ := runs.exists_front member
    exact (entryParts other inRest).of_fronts (List.prefix_refl _) below
  | seen _ _ _ inductionHypothesis => exact inductionHypothesis parts.of_cons
  | enter _ _ _ inductionHypothesis =>
    obtain ⟨entryParts, restParts⟩ := List.pairwise_cons.mp parts
    refine inductionHypothesis (List.pairwise_append.mpr
      ⟨pairwise_inside system _, restParts, fun inner isInner other inRest => ?_⟩)
    exact (entryParts other inRest).of_fronts (prefix_route_of_mem_inside isInner)
      (List.prefix_refl _)

end Runs

/-- The routes of a walk part from one another, each from those behind it. -/
theorem pairwise_routes (system : FileSystem) (rules : Rules) (root : Path) :
    (routes system rules root).Pairwise PartsBefore := by
  unfold routes
  split
  · exact .nil
  next top located =>
    split
    · obtain ⟨folders, runs⟩ :=
        exists_runs system rules (system.directories.erase top) (inside system (.top top))
      exact runs.pairwise (pairwise_inside system _)
    · split
      · exact List.pairwise_singleton _ _
      · exact .nil

theorem isEntryName_of_mem_routes {root : Path} {route : Route}
    (member : route ∈ routes system rules root) : ∀ name ∈ route, isEntryName name = true := by
  cases located : system.locate? root with
  | none =>
    rw [routes, located] at member
    cases member
  | some top =>
    cases directory : system.hasDirectory top with
    | true =>
      obtain ⟨folders, tour⟩ := exists_tour rules located directory
      exact tour.named member
    | false =>
      rw [routes, located] at member
      dsimp only at member
      rw [directory, if_neg Bool.false_ne_true] at member
      split at member
      · rw [List.mem_singleton.mp member]
        exact fun name inRoute => absurd inRoute List.not_mem_nil
      · cases member

theorem nodup_routes (system : FileSystem) (rules : Rules) (root : Path) :
    (routes system rules root).Nodup := by
  refine (pairwise_routes system rules root).imp fun {first second} parts same => ?_
  exact List.lt_irrefl second (same ▸ parts.lt)

/-! ### The order of entries -/

section Agreement

variable {one other : FileSystem} (agree : one.AgreeBut other ∅)
include agree

theorem verdict_eq (entry : Pending) : entry.verdict one rules = entry.verdict other rules := by
  unfold Pending.verdict Pending.isLoop
  simp only [agree.target?_eq, agree.entry?_eq]

theorem inside_eq (folder : Folder) : inside one folder = inside other folder := by
  rw [inside, inside, agree.names_eq]

/-- What a run does depends neither on the order of entries nor on that of the fresh
directories. -/
theorem Runs.transfer {fresh unseen : List Location} {pending : List Pending}
    {routes : List Route} {folders : List Folder}
    (runs : Runs one rules fresh pending routes folders) (same : fresh.Perm unseen) :
    Runs other rules unseen pending routes folders := by
  induction runs generalizing unseen with
  | done fresh => exact .done unseen
  | pass verdict _ inductionHypothesis =>
    rw [verdict_eq agree] at verdict
    exact .pass verdict (inductionHypothesis same)
  | list verdict _ inductionHypothesis =>
    rw [verdict_eq agree] at verdict
    exact .list verdict (inductionHypothesis same)
  | seen verdict seen _ inductionHypothesis =>
    rw [verdict_eq agree] at verdict
    exact .seen verdict (mt same.mem_iff.mpr seen) (inductionHypothesis same)
  | enter verdict member _ inductionHypothesis =>
    rw [verdict_eq agree] at verdict
    rw [inside_eq agree] at inductionHypothesis
    exact .enter verdict (same.mem_iff.mp member) (inductionHypothesis (same.erase _))

theorem routes_eq (current : one.current = other.current) (rules : Rules) (root : Path) :
    routes one rules root = routes other rules root := by
  unfold routes
  rw [agree.locate?_eq current]
  cases other.locate? root with
  | none => rfl
  | some top =>
    obtain ⟨folders, runs⟩ :=
      exists_runs one rules (one.directories.erase top) (inside one (.top top))
    have transferred := runs.transfer agree (agree.directories_perm.erase top)
    dsimp only
    rw [agree.hasDirectory_eq, ← transferred.run_eq, inside_eq agree, FileSystem.fileAt?,
      agree.entry?_eq, ← FileSystem.fileAt?]

end Agreement

/-- The paths that a walk lists ascend by the names from the root to them, which are compared by
their bytes, so no path is listed twice. The list stays the same when the entries of the file
system are kept in another order. -/
theorem walk_ascends (system : FileSystem) (settings : Settings) (rules : Rules)
    (compiled : Rules.ofSettings settings = .ok rules) (root : Path) :
    ∃ (paths : List Path) (below : List Route),
      (Repository.mk root settings).walk system = .ok paths ∧
      paths.map (fun path => Path.stripComponents? root.components path.components) =
        below.map some ∧
      below.Pairwise (· < ·) ∧ paths.Nodup ∧
      ∀ other : FileSystem, system.entries.Perm other.entries → system.current = other.current →
        (Repository.mk root settings).walk other = .ok paths := by
  refine ⟨_, routes system rules root, walk_eq_ok compiled system, ?_,
    (pairwise_routes system rules root).imp PartsBefore.lt, ?_, fun other same current => ?_⟩
  · rw [paths, List.map_map]
    refine List.map_congr_left fun route member => ?_
    rw [Function.comp_apply, components_pathOf root (isEntryName_of_mem_routes member),
      Path.stripComponents?_append]
  · exact (nodup_routes system rules root).map_on fun first inFirst second inSecond same =>
      pathOf_injective root (isEntryName_of_mem_routes inFirst)
        (isEntryName_of_mem_routes inSecond) same
  · rw [walk_eq_ok compiled other, paths, paths,
      routes_eq (FileSystem.agreeBut_of_perm same) current]

/-- A directory, a link to it with a name before its own, and a file whose name goes on where
that of the link ends. -/
def linkAhead : FileSystem :=
  ((((∅ : FileSystem).insert [] "z" .directory).insert ["z"] "x.py" (.file { bytes := [] })).insert
    [] "a-b.py" (.file { bytes := [] })).insert [] "a" (.link "z")

/-- The same entries, with the link in front of the file. -/
def linkAheadOfFile : FileSystem :=
  ((((∅ : FileSystem).insert [] "z" .directory).insert ["z"] "x.py" (.file { bytes := [] })).insert
    [] "a" (.link "z")).insert [] "a-b.py" (.file { bytes := [] })

theorem linkAhead_routes :
    routes linkAhead {} "/" = ([["a", "x.py"], ["a-b.py"]] : List Route) := by
  have names : linkAhead.names [] = (["a", "a-b.py", "z"] : List Name) :=
    List.mergeSort_of_pairwise (by decide)
  have pending : inside linkAhead (.top []) =
      [⟨.top [], "a"⟩, ⟨.top [], "a-b.py"⟩, ⟨.top [], "z"⟩] := congrArg (List.map _) names
  have behindLink : inside linkAhead ((Folder.top []).below "a" ["z"]) =
      [⟨(Folder.top []).below "a" ["z"], "x.py"⟩] :=
    congrArg (List.map _) (List.mergeSort_of_pairwise (by decide) :
      linkAhead.names ["z"] = [("x.py" : Name)])
  have place : linkAhead.entry? ([] ++ [("z" : Name)]) = some .directory := rfl
  have target : linkAhead.target? [] "a" = some [("z" : Name)] :=
    linkAhead.target?_of_link_beside rfl place rfl
  have link : (⟨.top [], "a"⟩ : Pending).verdict linkAhead {} = .enter ["z"] :=
    Pending.verdict_eq_enter_iff.mpr
      ⟨target, by decide, by decide +kernel, rfl, by decide +kernel⟩
  have inner : (⟨(Folder.top []).below "a" ["z"], "x.py"⟩ : Pending).verdict linkAhead {} =
      .list := Pending.verdict_of_source rfl (by decide) (Path.ofPath?_eq_python (by decide))
  have file : (⟨.top [], "a-b.py"⟩ : Pending).verdict linkAhead {} = .list :=
    Pending.verdict_of_source rfl (by decide) (Path.ofPath?_eq_python (by decide))
  have directory : (⟨.top [], "z"⟩ : Pending).verdict linkAhead {} = .enter ["z"] :=
    Pending.verdict_eq_enter_iff.mpr ⟨linkAhead.target?_of_not_link place rfl, by decide,
      by decide +kernel, rfl, by decide +kernel⟩
  have fresh : linkAhead.directories.erase [] = ([["z"]] : List Location) := by decide
  have runs : Runs linkAhead {} [["z"]] [⟨.top [], "a"⟩, ⟨.top [], "a-b.py"⟩, ⟨.top [], "z"⟩]
      [["a", "x.py"], ["a-b.py"]] [(Folder.top []).below "a" ["z"]] := by
    refine .enter link List.mem_cons_self ?_
    rw [behindLink]
    exact .list inner (.list file (.seen directory (by decide) (.done _)))
  rw [routes, linkAhead.locate?_root]
  dsimp only
  rw [if_pos (by decide), fresh, pending, runs.run_eq]

/-- What is behind the link comes before the file, and is not listed again. -/
theorem linkAhead_walk_ascends :
    Rules.ofSettings {} = .ok {} ∧ linkAhead.entries.Perm linkAheadOfFile.entries ∧
      (Repository.mk "/" {}).walk linkAhead =
        .ok (["/a/x.py", "/a-b.py"] : List Path) ∧
      (Repository.mk "/" {}).walk linkAheadOfFile =
        .ok (["/a/x.py", "/a-b.py"] : List Path) := by
  have compiled : Rules.ofSettings {} = .ok {} := rfl
  have reordered : linkAhead.entries.Perm linkAheadOfFile.entries := .swap _ _ _
  have listed : (Repository.mk "/" {}).walk linkAhead =
        .ok (["/a/x.py", "/a-b.py"] : List Path) := by
    rw [walk_eq_ok compiled, paths, linkAhead_routes]
    rfl
  obtain ⟨paths, below, walked, -, -, -, same⟩ := walk_ascends linkAhead {} {} compiled "/"
  rw [listed] at walked
  cases walked
  exact ⟨compiled, reordered, listed, same linkAheadOfFile reordered rfl⟩

end CodeAtlas.Walk
