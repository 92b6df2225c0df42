/-
How paths are resolved. What one piece of a path does is said once; from that, resolving a path
is resolving its front and then, from where that leads, its end. A link is resolved on its own
and then left behind, so it does not matter how many links a path leads through.
-/
import CodeAtlas.Proofs.FileSystem.Entries
import CodeAtlas.Proofs.Path

namespace CodeAtlas.FileSystem

variable (system : FileSystem)

/-! ### One piece -/

theorem follow_nil (idle : List Location) (here : Location) :
    system.follow idle here [] = .ok here := by
  rw [follow]

theorem follow_outside (idle : List Location) {here : Location} (piece : Name) (rest : List Name)
    (notDirectory : system.hasDirectory here = false) :
    system.follow idle here (piece :: rest) = .error .notDirectory := by
  rw [follow, if_pos (by simp [notDirectory])]

theorem follow_blank (idle : List Location) {here : Location} {piece : Name} (rest : List Name)
    (directory : system.hasDirectory here = true) (blank : piece = [] ∨ piece = Path.here) :
    system.follow idle here (piece :: rest) = system.follow idle here rest := by
  rw [follow, if_neg (by simp [directory]), if_pos blank]

theorem follow_above (idle : List Location) {here : Location} (rest : List Name)
    (directory : system.hasDirectory here = true) :
    system.follow idle here (Path.above :: rest) = system.follow idle here.dropLast rest := by
  rw [follow, if_neg (by simp [directory]), if_neg (by decide), if_pos rfl]

section Name

variable (idle : List Location) {here : Location} {piece : Name} (rest : List Name)
  (directory : system.hasDirectory here = true) (notBlank : ¬ (piece = [] ∨ piece = Path.here))
  (notAbove : piece ≠ Path.above)
include directory notBlank notAbove

theorem follow_missing (missing : system.entry? (here ++ [piece]) = none) :
    system.follow idle here (piece :: rest) = .error .missing := by
  rw [follow, if_neg (by simp [directory]), if_neg notBlank, if_neg notAbove, missing]

/-- A link leads where its target leads, from where the rest of the path goes on. -/
theorem follow_link {target : Path}
    (link : system.entry? (here ++ [piece]) = some (.link target))
    (isIdle : here ++ [piece] ∈ idle) :
    system.follow idle here (piece :: rest) =
      (system.follow (besides idle (here ++ [piece])) (startFrom target here)
        (pieces target)).bind fun there => system.follow idle there rest := by
  rw [follow, if_neg (by simp [directory]), if_neg notBlank, if_neg notAbove, link]
  dsimp only
  rw [dif_pos isIdle]
  cases system.follow (besides idle (here ++ [piece])) (startFrom target here) (pieces target) with
  | error failure => rfl
  | ok there => rfl

theorem follow_loop {target : Path}
    (link : system.entry? (here ++ [piece]) = some (.link target))
    (notIdle : here ++ [piece] ∉ idle) :
    system.follow idle here (piece :: rest) = .error .tooManyLinks := by
  rw [follow, if_neg (by simp [directory]), if_neg notBlank, if_neg notAbove, link]
  exact dif_neg notIdle

theorem follow_entry {entry : Entry} (notLink : entry.isLink = false)
    (found : system.entry? (here ++ [piece]) = some entry) :
    system.follow idle here (piece :: rest) = system.follow idle (here ++ [piece]) rest := by
  rw [follow, if_neg (by simp [directory]), if_neg notBlank, if_neg notAbove, found]
  cases entry with
  | link target => cases notLink
  | directory | file | sink => rfl

end Name

/-- The name of an entry that is no link leads to the entry. -/
theorem follow_name (idle : List Location) {here : Location} {name : Name} (rest : List Name)
    {entry : Entry} (notLink : entry.isLink = false)
    (found : system.entry? (here ++ [name]) = some entry) :
    system.follow idle here (name :: rest) = system.follow idle (here ++ [name]) rest := by
  obtain ⟨directory, isName⟩ := system.placed_entry found
  obtain ⟨nonempty, notDot, notAbove, -⟩ := isEntryName_iff.mp isName
  exact follow_entry system idle rest directory (not_or.mpr ⟨nonempty, notDot⟩) notAbove notLink
    found

/-! ### Several pieces -/

theorem isLink_eq_false {entry : Entry} (notLink : ∀ target, entry = .link target → False) :
    entry.isLink = false := by
  cases entry with
  | link target => exact (notLink target rfl).elim
  | directory | file | sink => rfl

/-- A path is resolved by resolving its front, and from there its end. -/
theorem follow_append (idle : List Location) (here : Location) (front back : List Name) :
    system.follow idle here (front ++ back) =
      (system.follow idle here front).bind fun middle => system.follow idle middle back := by
  fun_induction follow system idle here front with
  | case1 idle here => rfl
  | case2 idle here piece rest outside =>
    rw [List.cons_append, follow_outside system idle _ _ (by simpa using outside)]
    rfl
  | case3 idle here piece rest directory blank inductionHypothesis =>
    rw [List.cons_append, follow_blank system idle _ (by simpa using directory) blank,
      inductionHypothesis]
  | case4 idle here rest directory _ inductionHypothesis =>
    rw [List.cons_append, follow_above system idle _ (by simpa using directory),
      inductionHypothesis]
  | case5 idle here piece rest directory notBlank notAbove missing =>
    rw [List.cons_append,
      follow_missing system idle _ (by simpa using directory) notBlank notAbove missing]
    rfl
  | case6 idle here piece rest directory notBlank notAbove target link isIdle failure failed =>
    rw [List.cons_append,
      follow_link system idle _ (by simpa using directory) notBlank notAbove link isIdle, failed]
    rfl
  | case7 idle here piece rest directory notBlank notAbove target link isIdle there found
      _ inductionHypothesis =>
    rw [List.cons_append,
      follow_link system idle _ (by simpa using directory) notBlank notAbove link isIdle, found,
      ← inductionHypothesis]
    rfl
  | case8 idle here piece rest directory notBlank notAbove target link notIdle =>
    rw [List.cons_append,
      follow_loop system idle _ (by simpa using directory) notBlank notAbove link notIdle]
    rfl
  | case9 idle here piece rest directory notBlank notAbove entry notLink found
      inductionHypothesis =>
    rw [List.cons_append, follow_entry system idle _ (by simpa using directory) notBlank notAbove
      (isLink_eq_false notLink) found, inductionHypothesis]

section Parts

variable {system} {idle : List Location} {here middle location : Location} {front back : List Name}

theorem follow_append_of_ok (found : system.follow idle here front = .ok middle) :
    system.follow idle here (front ++ back) = system.follow idle middle back := by
  rw [follow_append, found]
  rfl

/-- The front of a path that is resolved is resolved. -/
theorem follow_append_eq_ok (found : system.follow idle here (front ++ back) = .ok location) :
    ∃ middle, system.follow idle here front = .ok middle ∧
      system.follow idle middle back = .ok location := by
  rw [follow_append] at found
  cases resolved : system.follow idle here front with
  | error failure =>
    rw [resolved] at found
    cases found
  | ok middle =>
    rw [resolved] at found
    exact ⟨middle, rfl, found⟩

end Parts

/-- A way down through directories leads to the last of them. -/
theorem follow_hasDirectory (idle : List Location) {location : Location} (rest : List Name)
    (directory : system.hasDirectory location = true) :
    system.follow idle [] (location ++ rest) = system.follow idle location rest := by
  induction location using List.reverseRecOn generalizing rest with
  | nil => rfl
  | append_singleton front name inductionHypothesis =>
    have found := system.hasDirectory_iff_entry?.mp directory
    have above := (system.placed_entry found).1
    rw [List.append_assoc, inductionHypothesis _ above, List.singleton_append,
      follow_name system _ rest rfl found]

/-! ### Ways that lead to the same place -/

/-- Two ways lead to the same place, from wherever they start and whatever links are being
followed, or fail in the same way. -/
def SameWay (one other : List Name) : Prop :=
  ∀ idle here, system.follow idle here one = system.follow idle here other

theorem SameWay.append_left {one other : List Name} (same : system.SameWay one other)
    (front : List Name) : system.SameWay (front ++ one) (front ++ other) := by
  intro idle here
  rw [follow_append, follow_append]
  exact congrArg _ (funext fun middle => same idle middle)

/-- Before another piece, those that are no names can be left out. -/
theorem sameWay_filter_isStep (front : List Name) (piece : Name) (rest : List Name) :
    system.SameWay (front ++ piece :: rest) (front.filter isStep ++ piece :: rest) := by
  induction front with
  | nil => exact fun _ _ => rfl
  | cons first front inductionHypothesis =>
    by_cases step : isStep first = true
    · rw [List.filter_cons_of_pos step]
      exact inductionHypothesis.append_left system [first]
    · rw [List.filter_cons_of_neg step]
      intro idle here
      cases directory : system.hasDirectory here with
      | true =>
        have blank : first = [] ∨ first = Path.here := by
          simpa [isStep, Classical.or_iff_not_imp_left] using step
        rw [List.cons_append, follow_blank system _ _ directory blank]
        exact inductionHypothesis idle here
      | false =>
        -- Either way goes on, so it fails at once outside a directory.
        obtain ⟨next, others, more⟩ := List.exists_cons_of_ne_nil
          (List.append_ne_nil_of_right_ne_nil (front.filter isStep) (List.cons_ne_nil piece rest))
        rw [List.cons_append, more, follow_outside system _ _ _ directory,
          follow_outside system _ _ _ directory]

/-- A path below a base leads where the names of the base and then the pieces of the path
lead. -/
theorem sameWay_join (base path : Path) (relative : path.isAbsolute = false) :
    system.SameWay (pieces (base.join path)) (namesIn base ++ pieces path) := by
  obtain ⟨front, names, joined⟩ := Path.exists_front_join base path relative
  obtain ⟨piece, rest, split⟩ := List.exists_cons_of_ne_nil (pieces_ne_nil path)
  rw [joined, split, ← names]
  exact system.sameWay_filter_isStep front piece rest

/-! ### Where a path leads -/

/-- A path leads to a location. -/
def LeadsTo (path : Path) (location : Location) : Prop :=
  system.follow system.links (startFrom path system.current) (pieces path) = .ok location

/-- A path denotes an entry of a directory: its last piece is the name of the entry, and what
stands before leads to the directory. -/
def Denotes (path : Path) (directory : Location) (name : Name) : Prop :=
  ∃ way, pieces path = way ++ [name] ∧
    system.follow system.links (startFrom path system.current) way = .ok directory

theorem toOption_eq_some_iff {Failure Result : Type} {outcome : Except Failure Result}
    {result : Result} : outcome.toOption = some result ↔ outcome = .ok result := by
  cases outcome with
  | error failure => simp [Except.toOption]
  | ok other => simp [Except.toOption]

theorem locate?_eq_some_iff {path : Path} {location : Location} :
    system.locate? path = some location ↔ path ≠ [] ∧ system.LeadsTo path location := by
  rw [locate?, toOption_eq_some_iff, locate]
  split
  next empty => simp [List.isEmpty_iff.mp empty]
  next nonempty =>
    have named : path ≠ [] := fun empty => nonempty (List.isEmpty_iff.mpr empty)
    rw [and_iff_right named, LeadsTo]

theorem target?_eq_some_iff {directory location : Location} {name : Name} :
    system.target? directory name = some location ↔
      system.follow system.links directory [name] = .ok location := by
  rw [target?, toOption_eq_some_iff]

/-- An entry that is no link leads to itself. -/
theorem target?_of_not_link {directory : Location} {name : Name} {entry : Entry}
    (found : system.entry? (directory ++ [name]) = some entry) (notLink : entry.isLink = false) :
    system.target? directory name = some (directory ++ [name]) := by
  rw [target?_eq_some_iff, follow_name system _ [] notLink found, follow_nil]

/-- A link to an entry beside it leads there, unless the entry is a link itself. -/
theorem target?_of_link_beside {directory : Location} {name target : Name} {entry : Entry}
    (link : system.entry? (directory ++ [name]) = some (.link target))
    (found : system.entry? (directory ++ [target]) = some entry)
    (notLink : entry.isLink = false) :
    system.target? directory name = some (directory ++ [target]) := by
  obtain ⟨isDirectory, isName⟩ := system.placed_entry link
  obtain ⟨nonempty, notDot, notAbove, -⟩ := isEntryName_iff.mp isName
  have isTarget := (system.placed_entry found).2
  have relative := Path.isAbsolute_of_isEntryName isTarget
  rw [target?, system.follow_link _ _ isDirectory (not_or.mpr ⟨nonempty, notDot⟩) notAbove link
    (system.mem_links_iff.mpr ⟨target, link⟩), startFrom, if_neg (by simp [relative]),
    pieces_of_isEntryName isTarget, system.follow_name _ _ notLink found, follow_nil]
  exact congrArg Except.toOption (system.follow_nil _ _)

theorem leadsTo_of_locate? {path : Path} {location : Location}
    (located : system.locate? path = some location) : system.LeadsTo path location :=
  (system.locate?_eq_some_iff.mp located).2

theorem locate?_root : system.locate? "/" = some [] := by
  have top : system.hasDirectory [] = true := rfl
  refine system.locate?_eq_some_iff.mpr ⟨by decide, ?_⟩
  rw [LeadsTo, show pieces "/" = [[], []] by decide, startFrom, if_pos (by decide),
    follow_blank system _ _ top (.inl rfl), follow_blank system _ _ top (.inl rfl), follow_nil]

theorem startFrom_join (base path : Path) (relative : path.isAbsolute = false)
    (here : Location) : startFrom (base.join path) here = startFrom base here := by
  rw [startFrom, startFrom, Path.isAbsolute_join base path relative]

variable {system}

/-- A path denotes one entry only. -/
theorem Denotes.unique {path : Path} {one other : Location} {name second : Name}
    (first : system.Denotes path one name) (again : system.Denotes path other second) :
    one = other ∧ name = second := by
  obtain ⟨way, split, found⟩ := first
  obtain ⟨road, parts, reached⟩ := again
  obtain ⟨rfl, same⟩ := List.append_inj' (split.symm.trans parts) rfl
  cases same
  exact ⟨Except.ok.inj (found.symm.trans reached), rfl⟩

/-- The entries of a directory that a path leads to are denoted by longer paths. -/
theorem LeadsTo.denotes_join {base : Path} {directory : Location} {name : Name}
    (leads : system.LeadsTo base directory) (isName : isEntryName name = true) :
    system.Denotes (base.join name) directory name := by
  have relative := Path.isAbsolute_of_isEntryName isName
  obtain ⟨front, before, joined⟩ := exists_pieces_join base name relative
  rw [pieces_of_isEntryName isName] at joined
  rw [LeadsTo, ← startFrom_join base name relative] at leads
  rcases before with equal | equal
  · exact ⟨front, joined, equal ▸ leads⟩
  · rw [equal] at leads
    obtain ⟨middle, resolved, last⟩ := follow_append_eq_ok leads
    refine ⟨front, joined, ?_⟩
    cases directoryAt : system.hasDirectory middle with
    | false =>
      rw [follow_outside system _ _ _ directoryAt] at last
      cases last
    | true =>
      rw [follow_blank system _ _ directoryAt (.inl rfl), follow_nil] at last
      rw [resolved, Except.ok.inj last]

/-- What an entry leads to is where the longer path leads. -/
theorem LeadsTo.join_name {base : Path} {directory location : Location} {name : Name}
    (leads : system.LeadsTo base directory) (isName : isEntryName name = true)
    (target : system.target? directory name = some location) :
    system.LeadsTo (base.join name) location := by
  obtain ⟨way, split, found⟩ := leads.denotes_join isName
  rw [LeadsTo, split, follow_append_of_ok found]
  exact system.target?_eq_some_iff.mp target

end CodeAtlas.FileSystem
