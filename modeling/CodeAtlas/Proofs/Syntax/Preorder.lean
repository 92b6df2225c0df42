/-
The order in which the nodes of a tree are visited. A node is found by the positions on the way
to it from the root, and nodes are visited in the order of their ways: each before the nodes below
it, and what is below a node before what is below the nodes behind it. The nodes that are pending
at any time part from one another, so what is visited below one of them comes before the others.
-/
import CodeAtlas.Proofs.Lexicographic
import CodeAtlas.Syntax.Node

namespace CodeAtlas.Syntax.Node

/-- The positions on the way from the root to a node, the first step first. -/
def way (node : Node) : List Nat := node.address.reverse

theorem exists_way_of_mem_below {node child : Node} {position : Nat} {trees : List Tree}
    (member : child ∈ node.below position trees) :
    ∃ later ≥ position, child.way = node.way ++ [later] := by
  induction trees generalizing position with
  | nil => cases member
  | cons tree trees inductionHypothesis =>
    rcases List.mem_cons.mp member with rfl | member
    · exact ⟨position, Nat.le_refl position, List.reverse_cons⟩
    · obtain ⟨later, behind, way⟩ := inductionHypothesis member
      exact ⟨later, Nat.le_of_succ_le behind, way⟩

theorem pairwise_partsBefore_below (node : Node) (position : Nat) (trees : List Tree) :
    (node.below position trees).Pairwise fun first second => PartsBefore first.way second.way := by
  induction trees generalizing position with
  | nil => exact .nil
  | cons tree trees inductionHypothesis =>
    refine List.pairwise_cons.mpr ⟨fun other member => ?_, inductionHypothesis (position + 1)⟩
    obtain ⟨later, behind, way⟩ := exists_way_of_mem_below member
    rw [way, Node.way, List.reverse_cons]
    exact partsBefore_concat node.way behind

theorem prefix_way_of_mem_children {node child : Node} (member : child ∈ node.children) :
    node.way <+: child.way := by
  obtain ⟨position, -, way⟩ := exists_way_of_mem_below member
  exact ⟨[position], way.symm⟩

theorem way_lt_of_mem_children {node child other : Node} (member : child ∈ node.children)
    (below : child.way <+: other.way) : node.way < other.way := by
  obtain ⟨position, -, way⟩ := exists_way_of_mem_below member
  obtain ⟨rest, equal⟩ := below
  have longer : node.way ++ [] < node.way ++ position :: rest :=
    List.append_left_lt (List.nil_lt_cons position rest)
  rwa [List.append_nil, ← List.singleton_append, ← List.append_assoc, ← way, equal] at longer

/-! ### What is visited -/

/-- The nodes that are pending are visited one after another. -/
theorem visit_append (front back : List Node) :
    visit (front ++ back) = visit front ++ visit back := by
  fun_induction visit front with
  | case1 => rfl
  | case2 node front inductionHypothesis =>
    rw [List.cons_append, visit, ← List.append_assoc, inductionHypothesis, List.cons_append]

theorem visit_cons (node : Node) (pending : List Node) :
    visit (node :: pending) = node.descendants ++ visit pending :=
  visit_append [node] pending

theorem descendants_eq_cons (node : Node) : node.descendants = node :: visit node.children := by
  rw [descendants, visit, List.append_nil]

/-- What is below something visited is visited. -/
theorem mem_visit_of_mem_descendants {pending : List Node} {node below : Node}
    (visited : node ∈ visit pending) (member : below ∈ node.descendants) :
    below ∈ visit pending := by
  fun_induction visit pending with
  | case1 => cases visited
  | case2 first pending inductionHypothesis =>
    rcases List.mem_cons.mp visited with rfl | later
    · have inFront : below ∈ visit (node :: pending) := by
        rw [visit_cons]
        exact List.mem_append_left _ member
      rwa [visit] at inFront
    · exact List.mem_cons_of_mem _ (inductionHypothesis later)

/-! ### The order -/

/-- What is visited is pending or below something pending. -/
theorem exists_prefix_of_mem_visit {pending : List Node} {node : Node}
    (member : node ∈ visit pending) : ∃ start ∈ pending, start.way <+: node.way := by
  fun_induction visit pending with
  | case1 => cases member
  | case2 first pending inductionHypothesis =>
    rcases List.mem_cons.mp member with rfl | member
    · exact ⟨node, List.mem_cons_self, List.prefix_refl _⟩
    · obtain ⟨start, inPending, below⟩ := inductionHypothesis member
      rcases List.mem_append.mp inPending with child | later
      · exact ⟨first, List.mem_cons_self, (prefix_way_of_mem_children child).trans below⟩
      · exact ⟨start, List.mem_cons_of_mem _ later, below⟩

theorem pairwise_visit {pending : List Node}
    (parts : pending.Pairwise fun first second => PartsBefore first.way second.way) :
    (visit pending).Pairwise fun first second => first.way < second.way := by
  fun_induction visit pending with
  | case1 => exact .nil
  | case2 node pending inductionHypothesis =>
    obtain ⟨nodeParts, pendingParts⟩ := List.pairwise_cons.mp parts
    have childrenParts : (node.children ++ pending).Pairwise fun first second =>
        PartsBefore first.way second.way := by
      refine List.pairwise_append.mpr ⟨pairwise_partsBefore_below node 0 _, pendingParts,
        fun child inChildren later inPending => ?_⟩
      exact (nodeParts later inPending).of_fronts (prefix_way_of_mem_children inChildren)
        (List.prefix_refl _)
    refine List.pairwise_cons.mpr ⟨fun other visited => ?_, inductionHypothesis childrenParts⟩
    obtain ⟨start, inPending, below⟩ := exists_prefix_of_mem_visit visited
    rcases List.mem_append.mp inPending with child | later
    · exact way_lt_of_mem_children child below
    · exact ((nodeParts start later).of_fronts (List.prefix_refl _) below).lt

/-- The nodes below a node are visited in the order of the ways to them. -/
theorem pairwise_descendants (node : Node) :
    node.descendants.Pairwise fun first second => first.way < second.way :=
  pairwise_visit (List.pairwise_singleton _ node)

end CodeAtlas.Syntax.Node
