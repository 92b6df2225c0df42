/-
What a walk does, step by step and as a whole. A run looks at its pending entries one after
another, and `Runs` says what each of them can do: it is passed over, it is listed, it leads to
a directory that has been entered before, or it is entered, and then its content is pending too.
The directories that a run enters are recorded beside the routes that it lists.

Everything about a whole walk follows from a few invariants of such runs, which are collected in
`Tour`: no directory is entered twice, every directory that an entry of an entered directory
leads to is entered, and the routes are those of the files in the entered directories.
-/
import Mathlib.Data.List.Nodup
import CodeAtlas.Proofs.FileSystem.Resolution

namespace CodeAtlas.Walk

variable {system : FileSystem} {rules : Rules}

/-! ### What happens to one entry -/

theorem Pending.verdict_eq_enter_iff {entry : Pending} {location : Location} :
    entry.verdict system rules = .enter location ↔
      system.target? entry.folder.location entry.name = some location ∧
        entry.isLoop system location = false ∧ entry.isSkipped rules = false ∧
        system.hasDirectory location = true ∧ rules.ignores entry.name = false := by
  unfold Pending.verdict
  rw [system.hasDirectory_iff_entry?]
  constructor
  · intro verdict
    split at verdict
    · cases verdict
    next place target =>
      split at verdict
      · cases verdict
      next passes =>
        rw [Bool.or_eq_true, not_or, Bool.not_eq_true, Bool.not_eq_true] at passes
        split at verdict
        next isDirectory =>
          split at verdict
          · cases verdict
          next kept =>
            cases verdict
            exact ⟨target, passes.1, passes.2, isDirectory, by simpa using kept⟩
        · split at verdict <;> cases verdict
        · cases verdict
  · rintro ⟨target, noLoop, notSkipped, isDirectory, notIgnored⟩
    simp [target, noLoop, notSkipped, isDirectory, notIgnored]

theorem Pending.verdict_eq_list_iff {entry : Pending} :
    entry.verdict system rules = .list ↔
      ∃ location content,
        system.target? entry.folder.location entry.name = some location ∧
          entry.isLoop system location = false ∧ entry.isSkipped rules = false ∧
          system.entry? location = some (.file content) ∧ isSource entry.name = true := by
  unfold Pending.verdict
  constructor
  · intro verdict
    split at verdict
    · cases verdict
    next place target =>
      split at verdict
      · cases verdict
      next passes =>
        rw [Bool.or_eq_true, not_or, Bool.not_eq_true, Bool.not_eq_true] at passes
        split at verdict
        · split at verdict <;> cases verdict
        next content isFile =>
          split at verdict
          next source => exact ⟨place, content, target, passes.1, passes.2, isFile, source⟩
          · cases verdict
        · cases verdict
  · rintro ⟨location, content, target, noLoop, notSkipped, isFile, source⟩
    simp [target, noLoop, notSkipped, isFile, source]

theorem Pending.verdict_of_isSkipped {entry : Pending} (skipped : entry.isSkipped rules = true) :
    entry.verdict system rules = .pass := by
  unfold Pending.verdict
  split
  · rfl
  · rw [skipped, Bool.or_true, if_pos rfl]

theorem Pending.verdict_of_file {entry : Pending} {content : Content}
    (found : system.entry? (entry.folder.location ++ [entry.name]) = some (.file content))
    (notSkipped : entry.isSkipped rules = false) (extension : isSource entry.name = true) :
    entry.verdict system rules = .list := by
  have noLoop : entry.isLoop system (entry.folder.location ++ [entry.name]) = false := by
    rw [Pending.isLoop, found]
    rfl
  exact Pending.verdict_eq_list_iff.mpr ⟨_, content, system.target?_of_not_link found rfl, noLoop,
    notSkipped, found, extension⟩

theorem mem_inside_iff {folder : Folder} {entry : Pending} :
    entry ∈ inside system folder ↔
      entry.folder = folder ∧ entry.name ∈ system.names folder.location := by
  rw [inside, List.mem_map]
  constructor
  · rintro ⟨name, member, rfl⟩
    exact ⟨rfl, member⟩
  · rintro ⟨rfl, member⟩
    exact ⟨entry.name, member, rfl⟩

/-! ### Runs -/

/-- What a run on some pending entries lists and which directories it enters, where those that
may still be entered are `fresh`. -/
inductive Runs (system : FileSystem) (rules : Rules) :
    List Location → List Pending → List Route → List Folder → Prop
  | done (fresh : List Location) : Runs system rules fresh [] [] []
  | pass {fresh : List Location} {entry : Pending} {rest : List Pending} {routes : List Route}
      {folders : List Folder} :
      entry.verdict system rules = .pass → Runs system rules fresh rest routes folders →
      Runs system rules fresh (entry :: rest) routes folders
  | list {fresh : List Location} {entry : Pending} {rest : List Pending} {routes : List Route}
      {folders : List Folder} :
      entry.verdict system rules = .list → Runs system rules fresh rest routes folders →
      Runs system rules fresh (entry :: rest) (entry.route :: routes) folders
  | seen {fresh : List Location} {entry : Pending} {rest : List Pending} {routes : List Route}
      {folders : List Folder} {location : Location} :
      entry.verdict system rules = .enter location → location ∉ fresh →
      Runs system rules fresh rest routes folders →
      Runs system rules fresh (entry :: rest) routes folders
  | enter {fresh : List Location} {entry : Pending} {rest : List Pending} {routes : List Route}
      {folders : List Folder} {location : Location} :
      entry.verdict system rules = .enter location → location ∈ fresh →
      Runs system rules (fresh.erase location)
        (inside system (entry.folder.below entry.name location) ++ rest) routes folders →
      Runs system rules fresh (entry :: rest) routes
        (entry.folder.below entry.name location :: folders)

theorem exists_runs (system : FileSystem) (rules : Rules) (fresh : List Location)
    (pending : List Pending) :
    ∃ folders, Runs system rules fresh pending (run system rules fresh pending) folders := by
  fun_induction run system rules fresh pending with
  | case1 fresh => exact ⟨[], .done fresh⟩
  | case2 fresh entry rest verdict inductionHypothesis =>
    obtain ⟨folders, runs⟩ := inductionHypothesis
    exact ⟨folders, .pass verdict runs⟩
  | case3 fresh entry rest verdict inductionHypothesis =>
    obtain ⟨folders, runs⟩ := inductionHypothesis
    exact ⟨folders, .list verdict runs⟩
  | case4 fresh entry rest location verdict unseen inductionHypothesis =>
    obtain ⟨folders, runs⟩ := inductionHypothesis
    exact ⟨_, .enter verdict unseen runs⟩
  | case5 fresh entry rest location verdict seen inductionHypothesis =>
    obtain ⟨folders, runs⟩ := inductionHypothesis
    exact ⟨folders, .seen verdict seen runs⟩

section Invariants

variable {fresh : List Location} {pending : List Pending} {routes : List Route}
  {folders : List Folder}

theorem Runs.run_eq (runs : Runs system rules fresh pending routes folders) :
    run system rules fresh pending = routes := by
  induction runs with
  | done fresh => rw [run]
  | pass verdict _ inductionHypothesis =>
    rw [run.eq_def]
    dsimp only
    rw [verdict]
    exact inductionHypothesis
  | list verdict _ inductionHypothesis =>
    rw [run.eq_def]
    dsimp only
    rw [verdict]
    exact congrArg _ inductionHypothesis
  | seen verdict seen _ inductionHypothesis =>
    rw [run.eq_def]
    dsimp only
    rw [verdict]
    dsimp only
    rw [dif_neg seen, inductionHypothesis]
  | enter verdict unseen _ inductionHypothesis =>
    rw [run.eq_def]
    dsimp only
    rw [verdict]
    dsimp only
    rw [dif_pos unseen, inductionHypothesis]

/-- The entries that a run looks at: those that were pending, and the content of the directories
that it enters. -/
def looked (system : FileSystem) (pending : List Pending) (folders : List Folder) :
    List Pending :=
  pending ++ folders.flatMap (inside system)

theorem looked_enter (folder : Folder) (rest : List Pending) (folders : List Folder) :
    (looked system (inside system folder ++ rest) folders).Perm
      (looked system rest (folder :: folders)) := by
  rw [looked, looked, List.flatMap_cons, ← List.append_assoc]
  exact List.perm_append_comm.append_right _

/-- The routes that a run lists are those of the files among the entries that it looks at. -/
theorem Runs.perm (runs : Runs system rules fresh pending routes folders) :
    routes.Perm (((looked system pending folders).filter fun entry =>
      entry.verdict system rules = .list).map Pending.route) := by
  induction runs with
  | done fresh => exact .refl []
  | pass verdict runs inductionHypothesis =>
    rwa [looked, List.cons_append, List.filter_cons_of_neg (by simp [verdict])]
  | list verdict runs inductionHypothesis =>
    rw [looked, List.cons_append, List.filter_cons_of_pos (by simp [verdict]), List.map_cons]
    exact inductionHypothesis.cons _
  | seen verdict seen runs inductionHypothesis =>
    rwa [looked, List.cons_append, List.filter_cons_of_neg (by simp [verdict])]
  | enter verdict unseen runs inductionHypothesis =>
    rw [looked, List.cons_append, List.filter_cons_of_neg (by simp [verdict])]
    exact inductionHypothesis.trans (((looked_enter _ _ _).filter _).map _)

/-- A run enters no directory twice, and only fresh ones. -/
theorem Runs.nodup (runs : Runs system rules fresh pending routes folders)
    (distinct : fresh.Nodup) :
    (folders.map (·.location)).Nodup ∧ ∀ folder ∈ folders, folder.location ∈ fresh := by
  induction runs with
  | done fresh => exact ⟨.nil, fun folder member => absurd member List.not_mem_nil⟩
  | pass _ _ inductionHypothesis => exact inductionHypothesis distinct
  | list _ _ inductionHypothesis => exact inductionHypothesis distinct
  | seen _ _ _ inductionHypothesis => exact inductionHypothesis distinct
  | enter verdict unseen runs inductionHypothesis =>
    obtain ⟨others, within⟩ := inductionHypothesis (distinct.erase _)
    refine ⟨List.nodup_cons.mpr ⟨fun again => ?_, others⟩, fun folder member => ?_⟩
    · obtain ⟨folder, member, same⟩ := List.mem_map.mp again
      exact distinct.not_mem_erase (same ▸ within folder member)
    · rcases List.mem_cons.mp member with rfl | member
      · exact unseen
      · exact List.mem_of_mem_erase (within folder member)

/-- A fresh directory that an entry leads to is entered. -/
theorem Runs.closed (runs : Runs system rules fresh pending routes folders) {entry : Pending}
    (member : entry ∈ looked system pending folders) {location : Location}
    (enters : entry.verdict system rules = .enter location) (unseen : location ∈ fresh) :
    ∃ folder ∈ folders, folder.location = location := by
  induction runs with
  | done fresh => exact absurd member List.not_mem_nil
  | pass verdict runs inductionHypothesis =>
    rcases List.mem_cons.mp member with rfl | member
    · rw [verdict] at enters
      cases enters
    · exact inductionHypothesis member unseen
  | list verdict runs inductionHypothesis =>
    rcases List.mem_cons.mp member with rfl | member
    · rw [verdict] at enters
      cases enters
    · exact inductionHypothesis member unseen
  | seen verdict seen runs inductionHypothesis =>
    rcases List.mem_cons.mp member with rfl | member
    · rw [verdict] at enters
      cases enters
      exact absurd unseen seen
    · exact inductionHypothesis member unseen
  | @enter fresh first rest routes folders place verdict fits runs inductionHypothesis =>
    by_cases same : location = place
    · exact ⟨_, List.mem_cons_self, same.symm⟩
    · have later : entry ∈ looked system
          (inside system (first.folder.below first.name place) ++ rest) folders := by
        rcases List.mem_cons.mp member with rfl | member
        · rw [verdict] at enters
          cases enters
          exact absurd rfl same
        · exact (looked_enter _ _ _).mem_iff.mpr member
      obtain ⟨folder, inFolders, equal⟩ :=
        inductionHypothesis later ((List.mem_erase_of_ne same).mpr unseen)
      exact ⟨folder, List.mem_cons_of_mem _ inFolders, equal⟩

/-- What holds of the directories of the pending entries, and is kept when an entry is entered,
holds of all directories that a run enters. -/
theorem Runs.all (runs : Runs system rules fresh pending routes folders) {Holds : Folder → Prop}
    (step : ∀ folder name location, Holds folder → name ∈ system.names folder.location →
      (⟨folder, name⟩ : Pending).verdict system rules = .enter location →
      Holds (folder.below name location))
    (start : ∀ entry ∈ pending,
      Holds entry.folder ∧ entry.name ∈ system.names entry.folder.location) :
    ∀ folder ∈ folders, Holds folder := by
  induction runs with
  | done fresh => exact fun folder member => absurd member List.not_mem_nil
  | pass _ _ inductionHypothesis =>
    exact inductionHypothesis fun entry member => start entry (List.mem_cons_of_mem _ member)
  | list _ _ inductionHypothesis =>
    exact inductionHypothesis fun entry member => start entry (List.mem_cons_of_mem _ member)
  | seen _ _ _ inductionHypothesis =>
    exact inductionHypothesis fun entry member => start entry (List.mem_cons_of_mem _ member)
  | @enter fresh first rest routes folders place verdict _ runs inductionHypothesis =>
    obtain ⟨holds, named⟩ := start first List.mem_cons_self
    have entered := step first.folder first.name place holds named verdict
    intro folder member
    rcases List.mem_cons.mp member with rfl | member
    · exact entered
    · refine inductionHypothesis (fun entry pending => ?_) folder member
      rcases List.mem_append.mp pending with new | old
      · obtain ⟨same, listed⟩ := mem_inside_iff.mp new
        rw [same]
        exact ⟨entered, listed⟩
      · exact start entry (List.mem_cons_of_mem _ old)

/-- The directories around an entry have been entered before it is looked at. -/
theorem Runs.around (runs : Runs system rules fresh pending routes folders)
    (before : Location → Prop)
    (start : ∀ entry ∈ pending, ∀ location ∈ entry.folder.around, before location) :
    ∀ folder ∈ folders, ∀ location ∈ folder.around,
      before location ∨ ∃ other ∈ folders, other.location = location := by
  induction runs generalizing before with
  | done fresh => exact fun folder member => absurd member List.not_mem_nil
  | pass _ _ inductionHypothesis =>
    exact inductionHypothesis before fun entry member => start entry (List.mem_cons_of_mem _ member)
  | list _ _ inductionHypothesis =>
    exact inductionHypothesis before fun entry member => start entry (List.mem_cons_of_mem _ member)
  | seen _ _ _ inductionHypothesis =>
    exact inductionHypothesis before fun entry member => start entry (List.mem_cons_of_mem _ member)
  | @enter fresh first rest routes folders place _ _ runs inductionHypothesis =>
    have widened : ∀ location ∈ (first.folder.below first.name place).around,
        before location ∨ location = place := by
      intro location inAround
      rcases List.mem_cons.mp inAround with rfl | outer
      · exact .inr rfl
      · exact .inl (start first List.mem_cons_self location outer)
    have later := inductionHypothesis (fun location => before location ∨ location = place)
      fun entry pending => by
        rcases List.mem_append.mp pending with new | old
        · rw [(mem_inside_iff.mp new).1]
          exact widened
        · exact fun location outer =>
            .inl (start entry (List.mem_cons_of_mem _ old) location outer)
    have found : ∀ location, (before location ∨ location = place) ∨
          (∃ other ∈ folders, other.location = location) →
        before location ∨ ∃ other ∈ first.folder.below first.name place :: folders,
          other.location = location := by
      rintro location ((known | rfl) | ⟨other, member, equal⟩)
      · exact .inl known
      · exact .inr ⟨_, List.mem_cons_self, rfl⟩
      · exact .inr ⟨other, List.mem_cons_of_mem _ member, equal⟩
    intro folder member location inAround
    rcases List.mem_cons.mp member with rfl | member
    · exact found location (.inl (widened location inAround))
    · exact found location (later folder member location inAround)

end Invariants

/-! ### Whole walks -/

/-- A directory is reached from the top of a walk through entries that are to be entered. -/
inductive Entered (system : FileSystem) (rules : Rules) (top : Location) : Folder → Prop
  | top : Entered system rules top (.top top)
  | next {folder : Folder} {name : Name} {location : Location} :
      Entered system rules top folder → name ∈ system.names folder.location →
      (⟨folder, name⟩ : Pending).verdict system rules = .enter location →
      Entered system rules top (folder.below name location)

/-- A walk from the top, by the routes that it lists and the directories that it enters. -/
structure Tour (system : FileSystem) (rules : Rules) (top : Location) (routes : List Route)
    (folders : List Folder) : Prop where
  top_mem : Folder.top top ∈ folders
  distinct : (folders.map (·.location)).Nodup
  entered : ∀ folder ∈ folders, Entered system rules top folder
  /-- What an entry of an entered directory leads to is entered, there or elsewhere. -/
  closed : ∀ folder ∈ folders, ∀ name ∈ system.names folder.location, ∀ location,
    (⟨folder, name⟩ : Pending).verdict system rules = .enter location →
      ∃ other ∈ folders, other.location = location
  around : ∀ folder ∈ folders, ∀ location ∈ folder.around,
    ∃ other ∈ folders, other.location = location
  listed : routes.Perm (((folders.flatMap (inside system)).filter fun entry =>
    entry.verdict system rules = .list).map Pending.route)

theorem exists_tour (rules : Rules) {root : Path} {top : Location}
    (located : system.locate? root = some top) (directory : system.hasDirectory top = true) :
    ∃ folders, Tour system rules top (routes system rules root) folders := by
  have unfolded : routes system rules root =
      run system rules (system.directories.erase top) (inside system (.top top)) := by
    simp [routes, located, directory]
  obtain ⟨folders, runs⟩ :=
    exists_runs system rules (system.directories.erase top) (inside system (.top top))
  obtain ⟨distinct, within⟩ := runs.nodup (system.nodup_directories.erase top)
  refine ⟨.top top :: folders, List.mem_cons_self, ?_, ?_, ?_, ?_, ?_⟩
  · refine List.nodup_cons.mpr ⟨fun again => ?_, distinct⟩
    obtain ⟨folder, member, same⟩ := List.mem_map.mp again
    exact system.nodup_directories.not_mem_erase (same ▸ within folder member)
  · refine List.forall_mem_cons.mpr ⟨.top, ?_⟩
    refine runs.all (fun _ _ _ entered named verdict => entered.next named verdict) ?_
    intro entry member
    obtain ⟨same, named⟩ := mem_inside_iff.mp member
    rw [same]
    exact ⟨.top, named⟩
  · intro folder member name named location verdict
    by_cases same : location = top
    · exact ⟨.top top, List.mem_cons_self, same.symm⟩
    · have isDirectory := (Pending.verdict_eq_enter_iff.mp verdict).2.2.2.1
      have unseen : location ∈ system.directories.erase top :=
        (List.mem_erase_of_ne same).mpr (system.mem_directories_iff.mpr isDirectory)
      have looks : (⟨folder, name⟩ : Pending) ∈ looked system (inside system (.top top)) folders :=
        List.mem_flatMap.mpr ⟨folder, member, mem_inside_iff.mpr ⟨rfl, named⟩⟩
      obtain ⟨other, inFolders, equal⟩ := runs.closed looks verdict unseen
      exact ⟨other, List.mem_cons_of_mem _ inFolders, equal⟩
  · have start : ∀ location ∈ (Folder.top top).around, location = top :=
      fun location member => List.mem_singleton.mp member
    have later := runs.around (· = top) fun entry member => by
      rw [(mem_inside_iff.mp member).1]
      exact start
    intro folder member location inAround
    have known : location = top ∨ ∃ other ∈ folders, other.location = location := by
      rcases List.mem_cons.mp member with rfl | member
      · exact .inl (start location inAround)
      · exact later folder member location inAround
    rcases known with rfl | ⟨other, inFolders, equal⟩
    · exact ⟨_, List.mem_cons_self, rfl⟩
    · exact ⟨other, List.mem_cons_of_mem _ inFolders, equal⟩
  · rw [unfolded]
    exact runs.perm

section Entered

variable {top : Location} {folder : Folder}

theorem Entered.hasDirectory (entered : Entered system rules top folder)
    (directory : system.hasDirectory top = true) :
    system.hasDirectory folder.location = true := by
  cases entered with
  | top => exact directory
  | next _ _ verdict => exact (Pending.verdict_eq_enter_iff.mp verdict).2.2.2.1

theorem Entered.named (entered : Entered system rules top folder) :
    ∀ name ∈ folder.route, isEntryName name = true := by
  induction entered with
  | top => exact fun name member => absurd member List.not_mem_nil
  | next _ named _ inductionHypothesis =>
    intro name member
    rcases List.mem_append.mp member with outer | last
    · exact inductionHypothesis name outer
    · rw [List.mem_singleton.mp last]
      exact system.isEntryName_of_mem_names named

/-- The path of an entered directory leads to it. -/
theorem Entered.leadsTo (entered : Entered system rules top folder) {root : Path}
    (located : system.locate? root = some top) :
    system.LeadsTo (pathOf root folder.route) folder.location := by
  induction entered with
  | top => exact system.leadsTo_of_locate? located
  | next _ named verdict inductionHypothesis =>
    rw [Folder.below, pathOf_concat]
    exact inductionHypothesis.join_name (system.isEntryName_of_mem_names named)
      (Pending.verdict_eq_enter_iff.mp verdict).1

end Entered

section Tour

variable {top : Location} {routes : List Route} {folders : List Folder}
  (tour : Tour system rules top routes folders)
include tour

theorem Tour.mem_routes_iff {route : Route} :
    route ∈ routes ↔ ∃ folder ∈ folders, ∃ name ∈ system.names folder.location,
      (⟨folder, name⟩ : Pending).verdict system rules = .list ∧ route = folder.route ++ [name] := by
  rw [tour.listed.mem_iff, List.mem_map]
  constructor
  · rintro ⟨entry, kept, rfl⟩
    obtain ⟨looks, verdict⟩ := List.mem_filter.mp kept
    obtain ⟨folder, member, content⟩ := List.mem_flatMap.mp looks
    obtain ⟨rfl, named⟩ := mem_inside_iff.mp content
    exact ⟨entry.folder, member, entry.name, named, of_decide_eq_true verdict, rfl⟩
  · rintro ⟨folder, member, name, named, verdict, rfl⟩
    refine ⟨⟨folder, name⟩, List.mem_filter.mpr ⟨?_, decide_eq_true verdict⟩, rfl⟩
    exact List.mem_flatMap.mpr ⟨folder, member, mem_inside_iff.mpr ⟨rfl, named⟩⟩

theorem Tour.named {route : Route} (member : route ∈ routes) :
    ∀ name ∈ route, isEntryName name = true := by
  obtain ⟨folder, inFolders, last, named, -, rfl⟩ := tour.mem_routes_iff.mp member
  intro name inRoute
  rcases List.mem_append.mp inRoute with outer | inner
  · exact (tour.entered folder inFolders).named name outer
  · rw [List.mem_singleton.mp inner]
    exact system.isEntryName_of_mem_names named

theorem Tour.eq_of_location {first second : Folder} (firstMember : first ∈ folders)
    (secondMember : second ∈ folders) (same : first.location = second.location) :
    first = second :=
  List.inj_on_of_nodup_map tour.distinct firstMember secondMember same

/-- The path of a listed file denotes its entry in the directory it was found in. -/
theorem Tour.denotes {root : Path} (located : system.locate? root = some top) {folder : Folder}
    (member : folder ∈ folders) {name : Name} (named : name ∈ system.names folder.location) :
    system.Denotes (pathOf root (folder.route ++ [name])) folder.location name := by
  rw [pathOf_concat]
  exact ((tour.entered folder member).leadsTo located).denotes_join
    (system.isEntryName_of_mem_names named)

/-- No route is listed twice: its path denotes one entry, and its directory is entered once. -/
theorem Tour.nodup_routes {root : Path} (located : system.locate? root = some top) :
    routes.Nodup := by
  have once : (folders.flatMap (inside system)).Nodup := by
    refine List.nodup_flatMap.mpr ⟨fun folder _ => ?_, ?_⟩
    · exact (system.nodup_names folder.location).map fun first second same => by
        injection same
    · refine (List.Nodup.of_map _ tour.distinct).imp fun different entry inFirst inSecond => ?_
      exact different ((mem_inside_iff.mp inFirst).1.symm.trans (mem_inside_iff.mp inSecond).1)
  rw [tour.listed.nodup_iff]
  refine (once.filter _).map_on fun first firstKept second secondKept same => ?_
  obtain ⟨folder, member, content⟩ := List.mem_flatMap.mp (List.mem_filter.mp firstKept).1
  obtain ⟨rfl, named⟩ := mem_inside_iff.mp content
  obtain ⟨folder, secondMember, content⟩ := List.mem_flatMap.mp (List.mem_filter.mp secondKept).1
  obtain ⟨rfl, secondNamed⟩ := mem_inside_iff.mp content
  have denotes := tour.denotes located member named
  rw [show first.folder.route ++ [first.name] = second.folder.route ++ [second.name] from same]
    at denotes
  obtain ⟨sameLocation, sameName⟩ := denotes.unique (tour.denotes located secondMember secondNamed)
  have sameFolder := tour.eq_of_location member secondMember sameLocation
  cases first
  cases second
  cases sameFolder
  cases sameName
  rfl

end Tour

end CodeAtlas.Walk
