/-
What a node holds: itself and all nodes below it, at any depth. The way to a node passes all nodes
that hold it, so two nodes that hold a third are never apart, and in one tree a node has one node
above it. The list of the nodes that are visited below a node holds each of them once.
-/
import Mathlib.Data.List.Nodup
import Mathlib.Logic.Relation
import CodeAtlas.Proofs.Syntax.Preorder

namespace CodeAtlas.Syntax.Node

/-- A node holds another: the other is the node itself or below it, at any depth. -/
def Holds (outer inner : Node) : Prop :=
  Relation.ReflTransGen (fun node child => child ∈ node.children) outer inner

namespace Holds

theorem refl (node : Node) : node.Holds node := Relation.ReflTransGen.refl

theorem trans {outer middle inner : Node} (first : outer.Holds middle)
    (second : middle.Holds inner) : outer.Holds inner :=
  Relation.ReflTransGen.trans first second

theorem of_mem_children {node child : Node} (member : child ∈ node.children) : node.Holds child :=
  Relation.ReflTransGen.single member

theorem eq_or_below {outer inner : Node} (holds : outer.Holds inner) :
    inner = outer ∨ ∃ child ∈ outer.children, child.Holds inner :=
  (Relation.ReflTransGen.cases_head holds).imp_left Eq.symm

theorem eq_or_above {outer inner : Node} (holds : outer.Holds inner) :
    inner = outer ∨ ∃ above, outer.Holds above ∧ inner ∈ above.children :=
  Relation.ReflTransGen.cases_tail holds

theorem prefix_way {outer inner : Node} (holds : outer.Holds inner) : outer.way <+: inner.way := by
  induction holds with
  | refl => exact List.prefix_refl _
  | tail _ member inductionHypothesis =>
    exact inductionHypothesis.trans (prefix_way_of_mem_children member)

theorem eq_of_way_eq {outer inner : Node} (holds : outer.Holds inner)
    (same : outer.way = inner.way) : inner = outer := by
  rcases holds.eq_or_above with equal | ⟨above, outside, member⟩
  · exact equal
  · obtain ⟨position, -, way⟩ := exists_way_of_mem_below member
    have shorter := outside.prefix_way.length_le
    rw [same, way, List.length_append, List.length_singleton] at shorter
    omega

theorem antisymm {first second : Node} (forth : first.Holds second) (back : second.Holds first) :
    first = second :=
  back.eq_of_way_eq (back.prefix_way.eq_of_length_le forth.prefix_way.length_le)

end Holds

/-! ### Visiting -/

theorem exists_holds_of_mem_visit {pending : List Node} {node : Node}
    (member : node ∈ visit pending) : ∃ start ∈ pending, start.Holds node := by
  fun_induction visit pending with
  | case1 => cases member
  | case2 first pending inductionHypothesis =>
    rcases List.mem_cons.mp member with rfl | later
    · exact ⟨node, .head _, .refl node⟩
    · obtain ⟨start, inPending, holds⟩ := inductionHypothesis later
      rcases List.mem_append.mp inPending with child | rest
      · exact ⟨first, .head _, (Holds.of_mem_children child).trans holds⟩
      · exact ⟨start, .tail _ rest, holds⟩

theorem self_mem_descendants (node : Node) : node ∈ node.descendants := by
  rw [descendants_eq_cons]
  exact List.mem_cons_self

/-- What is visited below a node is what the node holds. -/
theorem mem_descendants {outer inner : Node} : inner ∈ outer.descendants ↔ outer.Holds inner := by
  constructor
  · intro member
    obtain ⟨start, inPending, holds⟩ := exists_holds_of_mem_visit member
    rwa [List.mem_singleton.mp inPending] at holds
  · intro holds
    induction holds with
    | refl => exact self_mem_descendants outer
    | @tail middle child _ member inductionHypothesis =>
      refine mem_visit_of_mem_descendants inductionHypothesis ?_
      rw [descendants_eq_cons]
      obtain ⟨before, behind, split⟩ := List.append_of_mem member
      rw [split, visit_append, visit_cons]
      exact .tail _ (List.mem_append_right _ (List.mem_append_left _ (self_mem_descendants child)))

theorem visit_eq_flatMap (pending : List Node) : visit pending = pending.flatMap descendants := by
  induction pending with
  | nil => rw [visit, List.flatMap_nil]
  | cons node pending inductionHypothesis =>
    rw [visit_cons, List.flatMap_cons, inductionHypothesis]

theorem nodup_map_way {nodes : List Node}
    (ordered : nodes.Pairwise fun first second => first.way < second.way) :
    (nodes.map way).Nodup := by
  refine List.pairwise_map.mpr (ordered.imp ?_)
  intro first second less same
  rw [same] at less
  exact List.lt_irrefl _ less

theorem nodup_descendants (node : Node) : node.descendants.Nodup :=
  (nodup_map_way node.pairwise_descendants).of_map

/-! ### Nodes of one tree -/

section OneTree

variable {top first second : Node}

theorem eq_of_way_eq (inFirst : top.Holds first) (inSecond : top.Holds second)
    (same : first.way = second.way) : first = second :=
  List.inj_on_of_nodup_map (nodup_map_way top.pairwise_descendants) (mem_descendants.mpr inFirst)
    (mem_descendants.mpr inSecond) same

/-- In one tree a node has one node above it. -/
theorem eq_of_mem_children (inFirst : top.Holds first) (inSecond : top.Holds second) {child : Node}
    (member : child ∈ first.children) (also : child ∈ second.children) : first = second := by
  obtain ⟨position, -, way⟩ := exists_way_of_mem_below member
  obtain ⟨other, -, otherWay⟩ := exists_way_of_mem_below also
  rw [way] at otherWay
  exact eq_of_way_eq inFirst inSecond (List.append_inj_left' otherWay rfl)

/-- In one tree a node holds what the way to it leads on to. -/
theorem holds_of_prefix_way (inFirst : top.Holds first) (inSecond : top.Holds second)
    (leads : first.way <+: second.way) : first.Holds second := by
  induction inSecond with
  | refl =>
    have same := leads.eq_of_length_le inFirst.prefix_way.length_le
    rw [inFirst.eq_of_way_eq same.symm]
    exact .refl top
  | @tail above node inAbove member inductionHypothesis =>
    obtain ⟨position, -, way⟩ := exists_way_of_mem_below member
    -- The way to the first node is the whole way to the second one, or ends above it.
    rcases List.prefix_concat_iff.mp (way ▸ leads) with same | shorter
    · rw [eq_of_way_eq inFirst (Holds.trans inAbove (.of_mem_children member))
        (same.trans way.symm)]
      exact .refl node
    · exact (inductionHypothesis shorter).trans (.of_mem_children member)

/-- Of two nodes of one tree that hold a third, one holds the other. -/
theorem holds_or_holds (inFirst : top.Holds first) (inSecond : top.Holds second) {inner : Node}
    (holds : first.Holds inner) (also : second.Holds inner) :
    first.Holds second ∨ second.Holds first :=
  (List.prefix_or_prefix_of_prefix holds.prefix_way also.prefix_way).imp
    (holds_of_prefix_way inFirst inSecond) (holds_of_prefix_way inSecond inFirst)

/-- Two nodes are apart: nothing is held by both of them. -/
def Apart (first second : Node) : Prop := ∀ inner, first.Holds inner → ¬ second.Holds inner

theorem apart_of_not_holds (inFirst : top.Holds first) (inSecond : top.Holds second)
    (notHolds : ¬ first.Holds second) (notHeld : ¬ second.Holds first) : first.Apart second :=
  fun _ holds also => (holds_or_holds inFirst inSecond holds also).elim notHolds notHeld

end OneTree

/-- What is below a node is held by only one of the nodes right below it. -/
theorem eq_of_mem_children_of_holds {node first second inner : Node}
    (inFirst : first ∈ node.children) (inSecond : second ∈ node.children)
    (holds : first.Holds inner) (also : second.Holds inner) : first = second := by
  obtain ⟨position, -, way⟩ := exists_way_of_mem_below inFirst
  obtain ⟨other, -, otherWay⟩ := exists_way_of_mem_below inSecond
  have length : first.way.length = second.way.length := by
    rw [way, otherWay, List.length_append, List.length_append, List.length_singleton,
      List.length_singleton]
  have same : first.way = second.way :=
    (List.prefix_of_prefix_length_le holds.prefix_way also.prefix_way
      (Nat.le_of_eq length)).eq_of_length length
  exact eq_of_way_eq (.of_mem_children inFirst) (.of_mem_children inSecond) same

theorem not_mem_children_self (node : Node) : node ∉ node.children :=
  fun member => Nat.lt_irrefl _ (size_lt_of_mem_children member)

/-! ### Beside a node -/

theorem getElem?_below (node : Node) (start position : Nat) (trees : List Tree) :
    (node.below start trees)[position]? =
      trees[position]?.map fun tree =>
        ⟨tree, some node.tree, (start + position) :: node.address⟩ := by
  induction trees generalizing start position with
  | nil => rfl
  | cons tree trees inductionHypothesis =>
    cases position with
    | zero => rfl
    | succ position =>
      rw [below, List.getElem?_cons_succ, List.getElem?_cons_succ, inductionHypothesis,
        Nat.add_right_comm, Nat.add_assoc]

/-- What is right below a node does not depend on what is above it. -/
theorem below_eq (node : Node) (above : Option Tree) (start : Nat) (trees : List Tree) :
    Node.below ⟨node.tree, above, node.address⟩ start trees = node.below start trees := by
  induction trees generalizing start with
  | nil => rfl
  | cons _ _ inductionHypothesis => rw [below, below, inductionHypothesis]

section Beside

variable {node child : Node}

theorem of_getElem?_children {position : Nat} (found : node.children[position]? = some child) :
    child.above = some node.tree ∧ child.address = position :: node.address := by
  rw [children, getElem?_below, Nat.zero_add] at found
  obtain ⟨tree, -, rfl⟩ := Option.map_eq_some_iff.mp found
  exact ⟨rfl, rfl⟩

variable (member : child ∈ node.children)
include member

theorem siblings_eq : child.siblings = node.children := by
  obtain ⟨position, found⟩ := List.mem_iff_getElem?.mp member
  obtain ⟨above, address⟩ := of_getElem?_children found
  rw [siblings, above, address]
  exact below_eq node none 0 node.tree.children

theorem sibling?_eq (name : String) : child.sibling? name = node.child? name := by
  rw [sibling?, siblings_eq member, child?, inField, List.head?_filter]

/-- A node fills a field if it is the first node in the field. -/
theorem fills_iff (name : String) : child.fills name = true ↔ node.child? name = some child := by
  obtain ⟨position, found⟩ := List.mem_iff_getElem?.mp member
  obtain ⟨above, address⟩ := of_getElem?_children found
  have first : position? node.tree name =
      node.children.findIdx? fun other => other.field == some name := by
    rw [position?, ← map_tree_below node 0 node.tree.children, List.findIdx?_map]
    rfl
  rw [fills, above, address, child?, inField, List.head?_filter,
    List.find?_eq_bind_findIdx?_getElem?, ← first, Option.bind_eq_some_iff]
  refine beq_iff_eq.trans ⟨fun there => ⟨position, there, found⟩, ?_⟩
  rintro ⟨other, there, alsoFound⟩
  have same := address.symm.trans (of_getElem?_children alsoFound).2
  rw [there, (List.cons.inj same).1]

end Beside

end CodeAtlas.Syntax.Node
