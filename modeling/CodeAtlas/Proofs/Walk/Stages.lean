/-
A walk ends. Links that are followed make infinitely many paths, and what keeps a walk from
following them all is the set of directories that it has accepted: an entry that leads to one of
them is passed over, like one that is hidden, ignored or excluded, and what is passed over adds
nothing to look at.

A walk is a sequence of stages here, each with the entries that are still pending and the
directories that have been accepted. The work of a stage is the number of its pending entries and
of the entries of all directories that it has not accepted. Every step takes one from it, since
the entries of a directory become pending at the moment when the directory is accepted. So a walk
takes no more steps than there are entries, whatever the links among them.
-/
import Mathlib.Data.List.Perm.Subperm
import CodeAtlas.Proofs.Walk.Coverage

namespace CodeAtlas.Walk

/-- The directories without those that have been accepted. -/
def unaccepted (system : FileSystem) (accepted : List Location) : List Location :=
  system.directories.filter fun location => !accepted.contains location

/-- A stage of a walk: the directories that it has accepted, the entries that are still to be
looked at, and the routes that it has listed. -/
structure Stage where
  accepted : List Location
  pending : List Pending
  listed : List Route

namespace Stage

/-- The first stage of a walk has accepted its top. -/
def start (system : FileSystem) (top : Location) : Stage := ⟨[top], inside system (.top top), []⟩

/-- Looks at the next entry. A directory is accepted if it has not been accepted before. -/
def next? (system : FileSystem) (rules : Rules) (stage : Stage) : Option Stage :=
  match stage.pending with
  | [] => none
  | entry :: rest =>
    match entry.verdict system rules with
    | .pass => some { stage with pending := rest }
    | .list => some { stage with pending := rest, listed := stage.listed ++ [entry.route] }
    | .enter location =>
      if stage.accepted.contains location then some { stage with pending := rest }
      else some
        { stage with
          accepted := location :: stage.accepted
          pending := inside system (entry.folder.below entry.name location) ++ rest }

/-- The number of entries that are pending or may become so. -/
def work (system : FileSystem) (stage : Stage) : Nat :=
  stage.pending.length + ((unaccepted system stage.accepted).flatMap system.names).length

/-- The routes that are listed at a stage or will be. -/
def result (system : FileSystem) (rules : Rules) (stage : Stage) : List Route :=
  stage.listed ++ run system rules (unaccepted system stage.accepted) stage.pending

end Stage

variable {system : FileSystem} {rules : Rules} {stage next last : Stage}

/-! ### One step -/

theorem Stage.next?_eq_none_iff : stage.next? system rules = none ↔ stage.pending = [] := by
  unfold next?
  cases stage.pending with
  | nil => simp
  | cons entry rest =>
    simp only [reduceCtorEq, iff_false]
    split
    · simp
    · simp
    · split <;> simp

/-- What one step does: it looks at an entry and takes it away, and it lists the entry, accepts
the directory behind it, or does neither. -/
inductive Step (system : FileSystem) (rules : Rules) : Stage → Stage → Prop
  | pass {accepted : List Location} {entry : Pending} {rest : List Pending}
      {listed : List Route} :
      entry.verdict system rules = .pass →
      Step system rules ⟨accepted, entry :: rest, listed⟩ ⟨accepted, rest, listed⟩
  | list {accepted : List Location} {entry : Pending} {rest : List Pending}
      {listed : List Route} :
      entry.verdict system rules = .list →
      Step system rules ⟨accepted, entry :: rest, listed⟩
        ⟨accepted, rest, listed ++ [entry.route]⟩
  | seen {accepted : List Location} {entry : Pending} {rest : List Pending}
      {listed : List Route} {location : Location} :
      entry.verdict system rules = .enter location → location ∈ accepted →
      Step system rules ⟨accepted, entry :: rest, listed⟩ ⟨accepted, rest, listed⟩
  | accept {accepted : List Location} {entry : Pending} {rest : List Pending}
      {listed : List Route} {location : Location} :
      entry.verdict system rules = .enter location → location ∉ accepted →
      Step system rules ⟨accepted, entry :: rest, listed⟩
        ⟨location :: accepted, inside system (entry.folder.below entry.name location) ++ rest,
          listed⟩

theorem Stage.step_of_next? (taken : stage.next? system rules = some next) :
    Step system rules stage next := by
  obtain ⟨accepted, pending, listed⟩ := stage
  unfold next? at taken
  split at taken
  · cases taken
  next entry rest isPending =>
    cases isPending
    split at taken
    next verdict =>
      cases taken
      exact .pass verdict
    next verdict =>
      cases taken
      exact .list verdict
    next location verdict =>
      split at taken
      next seen =>
        cases taken
        exact .seen verdict (List.contains_iff_mem.mp seen)
      next unseen =>
        cases taken
        exact .accept verdict fun seen => unseen (List.contains_iff_mem.mpr seen)

theorem mem_unaccepted_iff {accepted : List Location} {location : Location} :
    location ∈ unaccepted system accepted ↔
      system.hasDirectory location = true ∧ location ∉ accepted := by
  rw [unaccepted, List.mem_filter, system.mem_directories_iff]
  simp

theorem erase_unaccepted (accepted : List Location) (location : Location) :
    (unaccepted system accepted).erase location = unaccepted system (location :: accepted) := by
  rw [unaccepted, unaccepted, (system.nodup_directories.filter _).erase_eq_filter,
    List.filter_filter]
  refine List.filter_congr fun other _ => ?_
  rw [Bool.eq_iff_iff]
  simp

theorem unaccepted_top (top : Location) :
    unaccepted system [top] = system.directories.erase top := by
  rw [← erase_unaccepted]
  simp [unaccepted]

/-- A step takes one from the work. -/
theorem Step.work (step : Step system rules stage next) :
    next.work system + 1 = stage.work system := by
  cases step with
  | pass verdict | list verdict | seen verdict _ =>
    simp only [Stage.work, List.length_cons]
    omega
  | @accept accepted entry rest listed location verdict unseen =>
    have isDirectory := (Pending.verdict_eq_enter_iff.mp verdict).2.2.2.1
    have isFresh : location ∈ unaccepted system accepted :=
      mem_unaccepted_iff.mpr ⟨isDirectory, unseen⟩
    have split := ((List.perm_cons_erase isFresh).flatMap_right system.names).length_eq
    rw [erase_unaccepted, List.flatMap_cons, List.length_append] at split
    simp only [Stage.work, split, List.length_append, inside, List.length_map, List.length_cons,
      Folder.below]
    omega

/-- What is listed in the end does not change. -/
theorem Step.result (step : Step system rules stage next) :
    next.result system rules = stage.result system rules := by
  have again : ∃ folders, Runs system rules (unaccepted system next.accepted) next.pending
      (run system rules (unaccepted system next.accepted) next.pending) folders :=
    exists_runs system rules _ _
  obtain ⟨folders, runs⟩ := again
  cases step with
  | pass verdict =>
    rw [Stage.result, Stage.result, (Runs.pass verdict runs).run_eq]
  | list verdict =>
    rw [Stage.result, Stage.result, (Runs.list verdict runs).run_eq, List.append_assoc,
      List.singleton_append]
  | @seen accepted entry rest listed location verdict seen =>
    have notFresh : location ∉ unaccepted system accepted :=
      fun isFresh => (mem_unaccepted_iff.mp isFresh).2 seen
    rw [Stage.result, Stage.result, (Runs.seen verdict notFresh runs).run_eq]
  | @accept accepted entry rest listed location verdict unseen =>
    have isDirectory := (Pending.verdict_eq_enter_iff.mp verdict).2.2.2.1
    have isFresh : location ∈ unaccepted system accepted :=
      mem_unaccepted_iff.mpr ⟨isDirectory, unseen⟩
    rw [← erase_unaccepted] at runs
    rw [Stage.result, Stage.result, (Runs.enter verdict isFresh runs).run_eq, erase_unaccepted]

/-- What holds at every stage of a walk from a root: no directory has been accepted twice, the
pending entries are entries of accepted directories, and so are those behind the routes that have
been listed. -/
structure Stage.Sound (system : FileSystem) (root : Path) (stage : Stage) : Prop where
  distinct : stage.accepted.Nodup
  pending : ∀ entry ∈ stage.pending, entry.folder.location ∈ stage.accepted ∧
    system.LeadsTo (pathOf root entry.folder.route) entry.folder.location ∧
      entry.name ∈ system.names entry.folder.location
  listed : ∀ route ∈ stage.listed, ∃ directory ∈ stage.accepted, ∃ name ∈ system.names directory,
    system.Denotes (pathOf root route) directory name

theorem Stage.sound_start {root : Path} {top : Location}
    (located : system.locate? root = some top) : (Stage.start system top).Sound system root where
  distinct := List.nodup_singleton top
  pending entry member := by
    obtain ⟨same, named⟩ := mem_inside_iff.mp member
    rw [same]
    exact ⟨List.mem_cons_self, system.leadsTo_of_locate? located, named⟩
  listed route member := absurd member List.not_mem_nil

theorem Step.sound {root : Path} (step : Step system rules stage next)
    (sound : stage.Sound system root) : next.Sound system root := by
  obtain ⟨distinct, pending, listed⟩ := sound
  cases step with
  | pass verdict | seen verdict _ =>
    exact ⟨distinct, fun entry member => pending entry (.tail _ member), listed⟩
  | @list accepted entry rest listed' verdict =>
    refine ⟨distinct, fun entry member => pending entry (.tail _ member), fun route member => ?_⟩
    rcases List.mem_append.mp member with old | new
    · exact listed route old
    · obtain ⟨inside, leads, named⟩ := pending entry (.head _)
      rw [List.mem_singleton.mp new, Pending.route, pathOf_concat]
      exact ⟨_, inside, _, named, leads.denotes_join (system.isEntryName_of_mem_names named)⟩
  | @accept accepted entry rest listed' location verdict unseen =>
    obtain ⟨-, leads, named⟩ := pending entry (.head _)
    have target := (Pending.verdict_eq_enter_iff.mp verdict).1
    refine ⟨List.nodup_cons.mpr ⟨unseen, distinct⟩, fun other member => ?_, fun route member => ?_⟩
    · rcases List.mem_append.mp member with new | old
      · obtain ⟨same, inNames⟩ := mem_inside_iff.mp new
        rw [same]
        refine ⟨List.mem_cons_self, ?_, inNames⟩
        rw [Folder.below, pathOf_concat]
        exact leads.join_name (system.isEntryName_of_mem_names named) target
      · obtain ⟨inside, rest⟩ := pending other (.tail _ old)
        exact ⟨List.mem_cons_of_mem _ inside, rest⟩
    · obtain ⟨directory, inside, rest⟩ := listed route member
      exact ⟨directory, List.mem_cons_of_mem _ inside, rest⟩

/-! ### Whole walks -/

/-- A walk comes from one stage to another in a number of steps. -/
inductive Advances (system : FileSystem) (rules : Rules) : Nat → Stage → Stage → Prop
  | here (stage : Stage) : Advances system rules 0 stage stage
  | step {steps : Nat} {stage next last : Stage} :
      stage.next? system rules = some next → Advances system rules steps next last →
      Advances system rules (steps + 1) stage last

theorem Advances.work {steps : Nat} (advances : Advances system rules steps stage last) :
    last.work system + steps = stage.work system := by
  induction advances with
  | here stage => rfl
  | step taken _ inductionHypothesis =>
    have one := (Stage.step_of_next? taken).work
    omega

theorem Advances.result {steps : Nat} (advances : Advances system rules steps stage last) :
    last.result system rules = stage.result system rules := by
  induction advances with
  | here stage => rfl
  | step taken _ inductionHypothesis =>
    exact inductionHypothesis.trans (Stage.step_of_next? taken).result

theorem Advances.sound {root : Path} {steps : Nat}
    (advances : Advances system rules steps stage last) (sound : stage.Sound system root) :
    last.Sound system root := by
  induction advances with
  | here stage => exact sound
  | step taken _ inductionHypothesis =>
    exact inductionHypothesis ((Stage.step_of_next? taken).sound sound)

/-- From every stage a walk comes to its end. -/
theorem exists_advances_to_end (system : FileSystem) (rules : Rules) (stage : Stage) :
    ∃ steps last, Advances system rules steps stage last ∧ last.next? system rules = none := by
  induction work : stage.work system using Nat.strongRecOn generalizing stage with
  | ind work inductionHypothesis =>
    cases taken : stage.next? system rules with
    | none => exact ⟨0, stage, .here stage, taken⟩
    | some next =>
      have one := (Stage.step_of_next? taken).work
      obtain ⟨steps, last, advances, ended⟩ :=
        inductionHypothesis (next.work system) (by omega) next rfl
      exact ⟨steps + 1, last, .step taken advances, ended⟩

/-- Every entry is in one directory, so all directories together have no more entries than there
are. -/
theorem length_flatMap_names_le (system : FileSystem) :
    (system.directories.flatMap system.names).length ≤ system.entries.length := by
  have places : (system.directories.flatMap fun directory =>
      (system.names directory).map fun name => directory ++ [name]).Nodup := by
    refine List.nodup_flatMap.mpr ⟨fun directory _ => ?_, ?_⟩
    · exact (system.nodup_names directory).map fun first second same => by simpa using same
    · refine system.nodup_directories.imp fun different place inFirst inSecond => ?_
      obtain ⟨first, -, rfl⟩ := List.mem_map.mp inFirst
      obtain ⟨second, -, same⟩ := List.mem_map.mp inSecond
      exact different (List.append_inj_left' same rfl).symm
  have known : (system.directories.flatMap fun directory =>
      (system.names directory).map fun name => directory ++ [name]) ⊆
        system.entries.map (·.1) := by
    intro place member
    obtain ⟨directory, -, inDirectory⟩ := List.mem_flatMap.mp member
    obtain ⟨name, named, rfl⟩ := List.mem_map.mp inDirectory
    obtain ⟨entry, found⟩ := system.mem_names_iff.mp named
    rw [system.entry?_concat, system.lookup_eq_some_iff] at found
    exact List.mem_map_of_mem found
  have bound := (List.subperm_of_subset places known).length_le
  simpa [List.length_flatMap] using bound

theorem work_start_le {top : Location} (directory : system.hasDirectory top = true) :
    (Stage.start system top).work system ≤ system.entries.length := by
  have isDirectory := system.mem_directories_iff.mpr directory
  have split := ((List.perm_cons_erase isDirectory).flatMap_right system.names).length_eq
  have bound := length_flatMap_names_le system
  rw [split, List.flatMap_cons, List.length_append] at bound
  simpa [Stage.work, Stage.start, unaccepted_top, inside, Folder.top] using bound

theorem result_start {root : Path} {top : Location} (located : system.locate? root = some top)
    (directory : system.hasDirectory top = true) :
    (Stage.start system top).result system rules = routes system rules root := by
  simp [Stage.result, Stage.start, unaccepted_top, routes, located, directory]

theorem Stage.result_of_next?_eq_none (ended : stage.next? system rules = none) :
    stage.result system rules = stage.listed := by
  rw [Stage.result, Stage.next?_eq_none_iff.mp ended, run, List.append_nil]

/-- Two routes of a walk whose paths denote the same entry are the same. -/
theorem Tour.eq_of_denotes {top : Location} {routes : List Route} {folders : List Folder}
    (tour : Tour system rules top routes folders) {root : Path}
    (located : system.locate? root = some top) {one other : Route} (oneListed : one ∈ routes)
    (otherListed : other ∈ routes) {directory : Location} {name : Name}
    (denotes : system.Denotes (pathOf root one) directory name)
    (denotesToo : system.Denotes (pathOf root other) directory name) : one = other := by
  obtain ⟨folder, member, first, named, -, rfl⟩ := tour.mem_routes_iff.mp oneListed
  obtain ⟨second, secondMember, last, lastNamed, -, rfl⟩ := tour.mem_routes_iff.mp otherListed
  obtain ⟨rfl, rfl⟩ := denotes.unique (tour.denotes located member named)
  obtain ⟨same, rfl⟩ := denotesToo.unique (tour.denotes located secondMember lastNamed)
  rw [tour.eq_of_location member secondMember same]

/-- From what is not a directory a walk returns the root itself, or nothing. -/
theorem routes_outside {root : Path}
    (outside : ∀ top, system.locate? root = some top → system.hasDirectory top = false) :
    routes system rules root = [] ∨ routes system rules root = [[]] := by
  unfold routes
  split
  · exact .inl rfl
  next top located =>
    rw [if_neg (by simp [outside top located])]
    split
    · exact .inr rfl
    · exact .inl rfl

/-- No two paths of a walk denote the same entry. -/
theorem paths_denote_different_entries (system : FileSystem) (rules : Rules) (root : Path) :
    (paths system rules root).Pairwise fun one other => ∀ directory name,
      system.Denotes one directory name → ¬ system.Denotes other directory name := by
  rw [paths, List.pairwise_map]
  by_cases inside : ∃ top, system.locate? root = some top ∧ system.hasDirectory top = true
  · obtain ⟨top, located, directory⟩ := inside
    obtain ⟨folders, tour⟩ := exists_tour rules located directory
    refine (tour.nodup_routes located).pairwise_of_forall_ne ?_
    intro one oneListed other otherListed different place name denotes denotesToo
    exact different (tour.eq_of_denotes located oneListed otherListed denotes denotesToo)
  · have outside : ∀ top, system.locate? root = some top → system.hasDirectory top = false :=
      fun top located => Bool.eq_false_iff.mpr fun directory => inside ⟨top, located, directory⟩
    rcases routes_outside outside with nothing | alone
    · rw [nothing]
      exact .nil
    · rw [alone]
      exact List.pairwise_singleton _ _

/-- A walk ends, whatever its root is and whatever links there are. From a directory it takes no
more steps than there are entries, and at no stage has it accepted a directory twice. What it
returns are paths of entries of the accepted directories, and no two of them denote the same
entry. From anything else it returns the root itself or nothing. -/
theorem walk_ends_accepting_once (system : FileSystem) (settings : Settings) (rules : Rules)
    (compiled : Rules.ofSettings settings = .ok rules) (root : Path) :
    ∃ paths, (Repository.mk root settings).walk system = .ok paths ∧
      (paths.Pairwise fun one other => ∀ directory name,
        system.Denotes one directory name → ¬ system.Denotes other directory name) ∧
      (∀ top, system.locate? root = some top → system.hasDirectory top = true →
        (∀ steps stage, Advances system rules steps (.start system top) stage →
          steps ≤ system.entries.length ∧ stage.accepted.Nodup) ∧
        ∃ steps last, Advances system rules steps (.start system top) last ∧
          last.next? system rules = none ∧ paths = last.listed.map (pathOf root) ∧
          ∀ path ∈ paths, ∃ directory ∈ last.accepted, ∃ name ∈ system.names directory,
            system.Denotes path directory name) ∧
      ((∀ top, system.locate? root = some top → system.hasDirectory top = false) →
        paths = [] ∨ paths = [root]) := by
  refine ⟨_, walk_eq_ok compiled system, paths_denote_different_entries system rules root, ?_, ?_⟩
  · intro top located directory
    refine ⟨fun steps stage advances => ?_, ?_⟩
    · have work := advances.work
      have bound := work_start_le directory
      exact ⟨by omega, (advances.sound (Stage.sound_start located)).distinct⟩
    · obtain ⟨steps, last, advances, ended⟩ :=
        exists_advances_to_end system rules (.start system top)
      have listed : last.listed = routes system rules root := by
        rw [← result_start located directory, ← advances.result,
          Stage.result_of_next?_eq_none ended]
      refine ⟨steps, last, advances, ended, by rw [listed]; rfl, fun path member => ?_⟩
      obtain ⟨route, inRoutes, rfl⟩ := List.mem_map.mp member
      exact (advances.sound (Stage.sound_start located)).listed route (listed ▸ inRoutes)
  · intro outside
    rw [paths]
    exact (routes_outside outside).imp (fun nothing => by rw [nothing]; rfl)
      fun alone => by rw [alone]; rfl

/-- Two packages with links to each other, and a link from the first to the directory above. -/
def twinPackages : FileSystem :=
  ((((((∅ : FileSystem).insert [] "a" .directory).insert [] "b" .directory).insert
    ["a"] "m.py" (.file { bytes := [] })).insert ["a"] "twin" (.link "../b")).insert
    ["b"] "twin" (.link "/a")).insert ["a"] "up" (.link "..")

theorem twinPackages_locate? : twinPackages.locate? "/a" = some [("a" : Name)] := by
  have found : twinPackages.entry? ([] ++ [("a" : Name)]) = some .directory := rfl
  refine twinPackages.locate?_eq_some_iff.mpr ⟨by decide, ?_⟩
  exact (twinPackages.follow_blank _ _ rfl (.inl rfl)).trans
    (twinPackages.target?_eq_some_iff.mp (twinPackages.target?_of_not_link found rfl))

/-- A walk from the first package ends after six steps at most. -/
theorem twinPackages_walk_ends :
    Rules.ofSettings {} = .ok {} ∧ twinPackages.locate? "/a" = some [("a" : Name)] ∧
      twinPackages.hasDirectory ["a"] = true ∧
      ∃ paths steps last, (Repository.mk "/a" {}).walk twinPackages = .ok paths ∧
        Advances twinPackages {} steps (.start twinPackages ["a"]) last ∧
        last.next? twinPackages {} = none ∧ steps ≤ 6 ∧ last.accepted.Nodup := by
  have located := twinPackages_locate?
  obtain ⟨paths, walked, -, fromDirectory, -⟩ :=
    walk_ends_accepting_once twinPackages {} {} rfl "/a"
  obtain ⟨bounded, steps, last, advances, ended, -⟩ := fromDirectory ["a"] located rfl
  obtain ⟨few, distinct⟩ := bounded steps last advances
  exact ⟨rfl, located, rfl, paths, steps, last, walked, advances, ended, few, distinct⟩

end CodeAtlas.Walk
