/-
Lists in order. Where the order is strict, what is in a list says what the list is.

Of two lists that part, one goes on with something smaller behind a common front, and then it is
the smaller one, whatever follows. Nodes of a tree and entries of directories are both visited
depth first, so what follows one of them is known only later; that two of them part is what stays
true until then.
-/
import Mathlib.Data.List.Perm.Basic

namespace CodeAtlas

theorem eq_of_pairwise_of_mem_iff {Item : Type} {less : Item → Item → Prop}
    (asymmetric : ∀ {first second : Item}, less first second → ¬ less second first)
    {one other : List Item} (oneOrdered : one.Pairwise less) (otherOrdered : other.Pairwise less)
    (same : ∀ item, item ∈ one ↔ item ∈ other) : one = other := by
  have nodup {items : List Item} (ordered : items.Pairwise less) : items.Nodup :=
    ordered.imp fun {first second} before (equal : first = second) =>
      asymmetric before (equal ▸ before)
  refine List.Perm.eq_of_pairwise (fun first second _ _ before after => ?_) oneOrdered
    otherOrdered ((List.perm_ext_iff_of_nodup (nodup oneOrdered) (nodup otherOrdered)).mpr same)
  exact absurd after (asymmetric before)

variable {Item : Type} [LT Item]

/-- The first list parts from the second: behind a common front it goes on with something
smaller. -/
def PartsBefore (first second : List Item) : Prop :=
  ∃ common smaller larger firstRest secondRest,
    first = common ++ smaller :: firstRest ∧ second = common ++ larger :: secondRest ∧
      smaller < larger

theorem partsBefore_concat (common : List Item) {smaller larger : Item} (less : smaller < larger) :
    PartsBefore (common ++ [smaller]) (common ++ [larger]) :=
  ⟨common, smaller, larger, [], [], rfl, rfl, less⟩

section Parts

variable {first second : List Item} (parts : PartsBefore first second)
include parts

theorem PartsBefore.lt : first < second := by
  obtain ⟨common, smaller, larger, firstRest, secondRest, rfl, rfl, less⟩ := parts
  exact List.append_left_lt (List.cons_lt_cons_iff.mpr (.inl less))

/-- Longer lists part where their fronts do. -/
theorem PartsBefore.of_fronts {firstLonger secondLonger : List Item}
    (firstFront : first <+: firstLonger) (secondFront : second <+: secondLonger) :
    PartsBefore firstLonger secondLonger := by
  obtain ⟨common, smaller, larger, firstRest, secondRest, rfl, rfl, less⟩ := parts
  obtain ⟨firstMore, rfl⟩ := firstFront
  obtain ⟨secondMore, rfl⟩ := secondFront
  exact ⟨common, smaller, larger, firstRest ++ firstMore, secondRest ++ secondMore,
    by rw [List.append_assoc, List.cons_append], by rw [List.append_assoc, List.cons_append], less⟩

end Parts

end CodeAtlas
