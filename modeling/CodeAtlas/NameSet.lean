/-
Sets of names, kept as lists in strictly ascending order, so that equal sets are equal lists.
Names are ordered by code points, which is the order of their UTF-8 bytes.
-/

namespace CodeAtlas

/-- A set of names. -/
structure NameSet where
  names : List String
  ascending : names.Pairwise (· < ·)
deriving DecidableEq

namespace NameSet

/-- The set without names. -/
def empty : NameSet := ⟨[], .nil⟩

/-- Puts a name at its place in an ascending list, unless it is there. -/
def insertName (name : String) : List String → List String
  | [] => [name]
  | head :: tail =>
    if name < head then name :: head :: tail
    else if name = head then head :: tail
    else head :: insertName name tail

theorem mem_insertName {name other : String} {names : List String} :
    other ∈ insertName name names ↔ other = name ∨ other ∈ names := by
  induction names with
  | nil => simp [insertName]
  | cons head tail inductionHypothesis =>
    unfold insertName
    split
    · simp
    · split
      next same => subst same; simp
      next => simp [inductionHypothesis, or_left_comm]

theorem insertName_of_forall_lt {name : String} {names : List String}
    (below : ∀ other ∈ names, name < other) : insertName name names = name :: names := by
  cases names with
  | nil => rfl
  | cons head tail => exact if_pos (below head List.mem_cons_self)

theorem pairwise_insertName {name : String} {names : List String}
    (ascending : names.Pairwise (· < ·)) : (insertName name names).Pairwise (· < ·) := by
  induction names with
  | nil => simp [insertName]
  | cons head tail inductionHypothesis =>
    obtain ⟨below, ascendingTail⟩ := List.pairwise_cons.mp ascending
    unfold insertName
    split
    next less =>
      refine List.pairwise_cons.mpr ⟨fun other member => ?_, ascending⟩
      rcases List.mem_cons.mp member with rfl | member
      · exact less
      · exact String.lt_trans less (below other member)
    next notLess =>
      split
      · exact ascending
      next different =>
        refine List.pairwise_cons.mpr ⟨fun other member => ?_, inductionHypothesis ascendingTail⟩
        rcases mem_insertName.mp member with rfl | member
        · exact String.not_le.mp fun le =>
            different (String.le_antisymm le (String.not_lt.mp notLess)) |>.elim
        · exact below other member

/-- Adds a name. -/
def insert (set : NameSet) (name : String) : NameSet :=
  ⟨insertName name set.names, pairwise_insertName set.ascending⟩

/-- The set of the names in a list. -/
def ofList : List String → NameSet
  | [] => empty
  | name :: names => (ofList names).insert name

@[simp]
theorem mem_names_insert {set : NameSet} {name other : String} :
    other ∈ (set.insert name).names ↔ other = name ∨ other ∈ set.names :=
  mem_insertName

@[simp]
theorem mem_names_ofList {names : List String} {name : String} :
    name ∈ (ofList names).names ↔ name ∈ names := by
  induction names with
  | nil => simp [ofList, empty]
  | cons head tail inductionHypothesis => simp [ofList, inductionHypothesis]

theorem names_ofList {names : List String} (ascending : names.Pairwise (· < ·)) :
    (ofList names).names = names := by
  induction ascending with
  | nil => rfl
  | cons below _ inductionHypothesis =>
    show insertName _ (ofList _).names = _
    rw [inductionHypothesis, insertName_of_forall_lt below]

@[simp]
theorem ofList_names (set : NameSet) : ofList set.names = set := by
  have same : (ofList set.names).names = set.names := names_ofList set.ascending
  obtain ⟨names, ascending⟩ := set
  cases taken : ofList names
  simpa [taken] using same

instance : Repr NameSet := ⟨fun set => reprPrec set.names⟩

end NameSet

end CodeAtlas
