/-
Where the nodes of a tree lie in the text. In a tree from a parser the nodes right below a node lie
inside it, one behind the other. This file carries that to all nodes: one that is visited after
another lies inside it if it is below it, and behind it otherwise. The nodes that are pending at
any time lie one behind the other, so what is visited below one of them lies before the others.
-/
import CodeAtlas.Proofs.Syntax.Preorder

namespace CodeAtlas.Syntax

/-- The trees right below a tree lie inside it. -/
def Tree.EnclosesChildren (tree : Tree) : Prop :=
  ∀ child ∈ tree.children,
    tree.label.start ≤ child.label.start ∧ child.label.stop ≤ tree.label.stop

instance (tree : Tree) : Decidable tree.EnclosesChildren :=
  inferInstanceAs (Decidable (∀ child ∈ tree.children, _ ∧ _))

/-- The trees right below a tree lie inside it, one behind the other. -/
structure Tree.IsNested (tree : Tree) : Prop where
  ordered : tree.label.start ≤ tree.label.stop
  inside : ∀ child ∈ tree.children,
    tree.label.start ≤ child.label.start ∧ child.label.stop ≤ tree.label.stop
  apart : tree.children.Pairwise fun first second => first.label.stop ≤ second.label.start

instance (tree : Tree) : Decidable tree.IsNested :=
  decidable_of_iff
    (tree.label.start ≤ tree.label.stop ∧
      (∀ child ∈ tree.children,
        tree.label.start ≤ child.label.start ∧ child.label.stop ≤ tree.label.stop) ∧
      tree.children.Pairwise fun first second => first.label.stop ≤ second.label.start)
    ⟨fun ⟨ordered, inside, apart⟩ => ⟨ordered, inside, apart⟩,
      fun ⟨ordered, inside, apart⟩ => ⟨ordered, inside, apart⟩⟩

namespace Node

/-- A node lies inside another one. -/
structure Within (inner outer : Node) : Prop where
  start : outer.tree.label.start ≤ inner.tree.label.start
  stop : inner.tree.label.stop ≤ outer.tree.label.stop

/-- A node lies behind another one. -/
def Follows (second first : Node) : Prop := first.tree.label.stop ≤ second.tree.label.start

theorem Within.refl (node : Node) : node.Within node := ⟨Nat.le_refl _, Nat.le_refl _⟩

theorem Within.trans {inner middle outer : Node} (first : inner.Within middle)
    (second : middle.Within outer) : inner.Within outer :=
  ⟨Nat.le_trans second.start first.start, Nat.le_trans first.stop second.stop⟩

theorem Follows.of_within {first second inner later : Node} (follows : second.Follows first)
    (inFirst : inner.Within first) (inSecond : later.Within second) : later.Follows inner :=
  Nat.le_trans inFirst.stop (Nat.le_trans follows inSecond.start)

/-! ### One step -/

theorem within_of_mem_children {node child : Node} (encloses : node.tree.EnclosesChildren)
    (member : child ∈ node.children) : child.Within node := by
  obtain ⟨start, stop⟩ := encloses child.tree (tree_mem_children member)
  exact ⟨start, stop⟩

theorem pairwise_follows_children {node : Node} (nested : node.tree.IsNested) :
    node.children.Pairwise fun first second => second.Follows first := by
  have trees : (node.children.map (·.tree)).Pairwise fun first second =>
      first.label.stop ≤ second.label.start := by
    rw [children, map_tree_below]
    exact nested.apart
  exact List.pairwise_map.mp trees

/-- The nodes that are pending still lie one behind the other when the first one has been taken and
the nodes right below it wait in its place. -/
theorem pairwise_follows_step {node : Node} {pending : List Node} (nested : node.tree.IsNested)
    (follows : (node :: pending).Pairwise fun first second => second.Follows first) :
    (node.children ++ pending).Pairwise fun first second => second.Follows first := by
  obtain ⟨behindNode, behind⟩ := List.pairwise_cons.mp follows
  refine List.pairwise_append.mpr ⟨pairwise_follows_children nested, behind, ?_⟩
  intro child inChildren later inPending
  exact (behindNode later inPending).of_within (within_of_mem_children nested.inside inChildren)
    (.refl _)

/-! ### All nodes -/

/-- What is visited lies inside something that was pending. -/
theorem exists_within_of_mem_visit {pending : List Node} {node : Node}
    (enclose : ∀ other ∈ visit pending, other.tree.EnclosesChildren)
    (member : node ∈ visit pending) : ∃ start ∈ pending, node.Within start := by
  fun_induction visit pending with
  | case1 => cases member
  | case2 first pending inductionHypothesis =>
    rcases List.mem_cons.mp member with rfl | later
    · exact ⟨node, .head _, .refl node⟩
    · obtain ⟨start, inPending, within⟩ :=
        inductionHypothesis (fun other visited => enclose other (.tail _ visited)) later
      rcases List.mem_append.mp inPending with child | rest
      · exact ⟨first, .head _,
          within.trans (within_of_mem_children (enclose first (.head _)) child)⟩
      · exact ⟨start, .tail _ rest, within⟩

/-- A node below another one lies inside it. -/
theorem within_of_mem_descendants {node below : Node}
    (enclose : ∀ other ∈ node.descendants, other.tree.EnclosesChildren)
    (member : below ∈ node.descendants) : below.Within node := by
  obtain ⟨start, inPending, within⟩ := exists_within_of_mem_visit enclose member
  rwa [List.mem_singleton.mp inPending] at within

/-- Of two nodes, the one that is visited later is below the other or lies behind it. -/
theorem pairwise_visit_below_or_follows {pending : List Node}
    (nested : ∀ node ∈ visit pending, node.tree.IsNested)
    (follows : pending.Pairwise fun first second => second.Follows first) :
    (visit pending).Pairwise fun first second =>
      second ∈ first.descendants ∨ second.Follows first := by
  fun_induction visit pending with
  | case1 => exact .nil
  | case2 node pending inductionHypothesis =>
    have below : ∀ other ∈ visit (node.children ++ pending), other.tree.IsNested :=
      fun other visited => nested other (.tail _ visited)
    refine List.pairwise_cons.mpr ⟨fun other visited => ?_,
      inductionHypothesis below (pairwise_follows_step (nested node (.head _)) follows)⟩
    -- The nodes right below come first, and then what was pending, which lies behind the node.
    rw [visit_append] at visited below
    rcases List.mem_append.mp visited with inside | later
    · refine .inl ?_
      rw [descendants_eq_cons]
      exact .tail _ inside
    · obtain ⟨start, inPending, within⟩ := exists_within_of_mem_visit
        (fun other member => (below other (List.mem_append_right _ member)).inside) later
      exact .inr (((List.pairwise_cons.mp follows).1 start inPending).of_within (.refl node) within)

/-- Of two nodes of a tree, the one that is visited later is below the other and inside it, or lies
behind it. -/
theorem pairwise_descendants_within_or_follows {node : Node}
    (nested : ∀ other ∈ node.descendants, other.tree.IsNested) :
    node.descendants.Pairwise fun first second =>
      (second ∈ first.descendants → second.Within first) ∧
        (second ∉ first.descendants → second.Follows first) := by
  refine (pairwise_visit_below_or_follows nested (List.pairwise_singleton _ node)).imp_of_mem ?_
  intro first second member _ order
  refine ⟨fun below => within_of_mem_descendants (fun other inFirst => ?_) below,
    fun notBelow => order.resolve_left notBelow⟩
  exact (nested other (mem_visit_of_mem_descendants member inFirst)).inside

end Node

end CodeAtlas.Syntax
