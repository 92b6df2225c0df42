/-
The traversal of a tree, one node after another. A traversal keeps its pending nodes on a stack and
does not recurse: a step takes the node on top, and puts the nodes right below it in its place. This
file sets it against the order that is defined by recursion: a node, and then what is below each of
the nodes right below it, from left to right.

What ties the two together holds at every moment. What is still to come is what recursion gives for
the nodes on the stack, from the top down, and a step moves the first node of that to what has
been yielded. Each step takes one node off those that the pending trees have, so the traversal ends
after as many steps as its tree has nodes.
-/
import CodeAtlas.Proofs.Syntax.Subtree

namespace CodeAtlas.Syntax.Node

/-! ### By recursion -/

/-- A node, and then what is below each of the nodes right below it, from left to right. -/
def preorder (node : Node) : List Node :=
  node :: node.children.attach.flatMap fun child => preorder child.1
termination_by node.tree.size
decreasing_by exact size_lt_of_mem_children child.2

theorem preorder_eq_cons (node : Node) :
    node.preorder = node :: node.children.flatMap preorder := by
  rw [preorder, List.flatMap_subtype fun _ _ => rfl, List.unattach_attach]

/-- The nodes are visited in the order that recursion gives. -/
theorem descendants_eq_preorder (node : Node) : node.descendants = node.preorder := by
  induction node using preorder.induct with
  | case1 node inductionHypothesis =>
    rw [descendants_eq_cons, visit_eq_flatMap, preorder_eq_cons]
    congr 1
    exact List.flatMap_congr fun child member => inductionHypothesis ⟨child, member⟩

theorem visit_eq_flatMap_preorder (stack : List Node) : visit stack = stack.flatMap preorder := by
  rw [visit_eq_flatMap]
  exact List.flatMap_congr fun node _ => node.descendants_eq_preorder

theorem flatMap_preorder_eq_nil {stack : List Node} :
    stack.flatMap preorder = [] ↔ stack = [] := by
  cases stack with
  | nil => exact iff_of_true rfl rfl
  | cons node stack => simp [preorder_eq_cons]

/-! ### One step -/

/-- One step of a traversal: the node on top of the stack, and the stack with the nodes right below
it in its place. -/
def next? : List Node → Option (Node × List Node)
  | [] => none
  | node :: stack => some (node, node.children ++ stack)

theorem next?_eq_none {stack : List Node} : next? stack = none ↔ stack = [] := by
  cases stack with
  | nil => exact iff_of_true rfl rfl
  | cons node stack => exact iff_of_false nofun nofun

theorem eq_of_next? {stack rest : List Node} {node : Node}
    (taken : next? stack = some (node, rest)) :
    ∃ others, stack = node :: others ∧ rest = node.children ++ others := by
  cases stack with
  | nil => cases taken
  | cons top others =>
    cases taken
    exact ⟨others, rfl, rfl⟩

section Step

variable {stack rest : List Node} {node : Node} (taken : next? stack = some (node, rest))
include taken

theorem visit_of_next? : visit stack = node :: visit rest := by
  obtain ⟨others, rfl, rfl⟩ := eq_of_next? taken
  rw [visit]

/-- A step takes one node off those that the pending trees have. -/
theorem pendingSize_of_next? : pendingSize stack = 1 + pendingSize rest := by
  obtain ⟨others, rfl, rfl⟩ := eq_of_next? taken
  simp only [pendingSize, List.map_append, List.map_cons, children, map_tree_below,
    sizeAll_append, Tree.sizeAll, size_eq, Nat.add_assoc]

end Step

/-! ### All steps -/

/-- A traversal that has a stack yields some nodes, one at each step, and is left with another
stack. -/
inductive Yields : List Node → List Node → List Node → Prop
  | nothing {stack : List Node} : Yields stack [] stack
  | step {stack between rest : List Node} {node : Node} {nodes : List Node}
      (taken : next? stack = some (node, between)) (yields : Yields between nodes rest) :
      Yields stack (node :: nodes) rest

/-- What is yielded are the first of the nodes to visit, and the others are what the stack that is
left gives. -/
theorem Yields.visit_eq {stack nodes rest : List Node} (yields : Yields stack nodes rest) :
    visit stack = nodes ++ visit rest := by
  induction yields with
  | nothing => rfl
  | step taken _ inductionHypothesis =>
    rw [visit_of_next? taken, inductionHypothesis, List.cons_append]

theorem Yields.pendingSize_eq {stack nodes rest : List Node} (yields : Yields stack nodes rest) :
    pendingSize stack = nodes.length + pendingSize rest := by
  induction yields with
  | nothing => exact (Nat.zero_add _).symm
  | step taken _ inductionHypothesis =>
    rw [pendingSize_of_next? taken, inductionHypothesis, List.length_cons]
    omega

/-- A traversal can be driven on until its stack is empty. -/
theorem yields_visit (stack : List Node) : Yields stack (visit stack) [] := by
  fun_induction visit stack with
  | case1 => exact .nothing
  | case2 node stack inductionHypothesis => exact .step rfl inductionHypothesis

theorem pendingSize_singleton (node : Node) : pendingSize [node] = node.tree.size := by
  rw [pendingSize, List.map_cons, List.map_nil, Tree.sizeAll, Tree.sizeAll, Nat.add_zero]

/-- The traversal below a node yields what recursion gives: all nodes that the node holds, each
once, and then its stack is empty. At every moment before, what the stack still gives is what
recursion gives for the nodes on it, from the top down, and behind what has been yielded this is
all there is. The steps made and the nodes of the pending trees add up to the nodes of the tree, and
there is a next step unless all nodes have been yielded. -/
theorem descendants_yield_preorder (node : Node) :
    node.descendants = node.preorder ∧
      node.descendants.Nodup ∧ (∀ inner, inner ∈ node.descendants ↔ node.Holds inner) ∧
      Yields [node] node.descendants [] ∧
      ∀ yielded stack, Yields [node] yielded stack →
        Yields stack (stack.flatMap preorder) [] ∧
        yielded ++ stack.flatMap preorder = node.preorder ∧
        yielded.length + pendingSize stack = node.tree.size ∧
        (next? stack = none ↔ yielded = node.preorder) := by
  refine ⟨node.descendants_eq_preorder, node.nodup_descendants, fun inner => mem_descendants,
    yields_visit [node], fun yielded stack yields => ?_⟩
  have remaining : yielded ++ stack.flatMap preorder = node.preorder := by
    rw [← visit_eq_flatMap_preorder, ← yields.visit_eq, ← descendants_eq_preorder, descendants]
  refine ⟨?_, remaining, ?_, ?_⟩
  · rw [← visit_eq_flatMap_preorder]
    exact yields_visit stack
  · rw [← yields.pendingSize_eq, pendingSize_singleton]
  · rw [next?_eq_none, ← flatMap_preorder_eq_nil, ← remaining, List.self_eq_append_right]

/-- A call whose two arguments are both missing, at the same place. -/
def missingArguments : Tree :=
  .node ⟨"call", true, none, 0, 3⟩
    [.node ⟨"identifier", true, some "function", 0, 1⟩ [],
      .node ⟨"arguments", true, some "arguments", 1, 3⟩
        [.node ⟨"identifier", true, none, 2, 2⟩ [], .node ⟨"identifier", true, none, 2, 2⟩ []]]

/-- After three steps the two nodes that look alike are still to come, and they are two. -/
theorem missingArguments_yield_preorder :
    ∃ yielded stack, Yields [root missingArguments] yielded stack ∧
      yielded.map kind = ["call", "identifier", "arguments"] ∧
      stack.map way = [[1, 0], [1, 1]] ∧
      yielded ++ stack.flatMap preorder = (root missingArguments).preorder ∧
      yielded.length + pendingSize stack = 5 ∧
      (root missingArguments).descendants.Nodup := by
  have reached : ∃ yielded stack, Yields [root missingArguments] yielded stack ∧
      yielded.map kind = ["call", "identifier", "arguments"] ∧
      stack.map way = [[1, 0], [1, 1]] :=
    ⟨_, _, .step rfl (.step rfl (.step rfl .nothing)), rfl, rfl⟩
  obtain ⟨yielded, stack, yields, kinds, ways⟩ := reached
  obtain ⟨-, nodup, -, -, midway⟩ := descendants_yield_preorder (root missingArguments)
  obtain ⟨-, remaining, steps, -⟩ := midway yielded stack yields
  exact ⟨yielded, stack, yields, kinds, ways, remaining, steps, nodup⟩

end CodeAtlas.Syntax.Node
