/-
Nodes of a syntax tree and the order in which they are visited. A node is a subtree together
with the way to it from the root, so two nodes that look alike are still told apart, and with
the tree right above it. Nodes are visited from a list of pending nodes, the next one first:
taking a node puts the nodes below it in front of the others. No step depends on how deep the
tree is.
-/
import CodeAtlas.Syntax.Tree

namespace CodeAtlas.Syntax

/-- A node of a tree. -/
structure Node where
  tree : Tree
  /-- The tree right above. -/
  above : Option Tree
  /-- For each step from the root, the position among the nodes below; the last step first. -/
  address : List Nat

namespace Node

/-- The root of a tree. -/
def root (tree : Tree) : Node := ⟨tree, none, []⟩

/-- The kind of a node. -/
def kind (node : Node) : String := node.tree.label.kind

/-- Whether the grammar names a node. -/
def isNamed (node : Node) : Bool := node.tree.label.named

/-- The field that a node fills. -/
def field (node : Node) : Option String := node.tree.label.field

/-- The nodes right below, from a given position on. -/
def below (node : Node) (position : Nat) : List Tree → List Node
  | [] => []
  | tree :: trees =>
    ⟨tree, some node.tree, position :: node.address⟩ :: node.below (position + 1) trees

/-- The nodes right below. -/
def children (node : Node) : List Node := node.below 0 node.tree.children

/-- The named nodes right below. -/
def namedChildren (node : Node) : List Node := node.children.filter isNamed

/-- The nodes right below that fill a field. -/
def inField (node : Node) (name : String) : List Node :=
  node.children.filter (·.field == some name)

/-- The first node right below that fills a field. -/
def child? (node : Node) (name : String) : Option Node := (node.inField name).head?

/-- The position of the first tree that fills a field. -/
def position? (tree : Tree) (name : String) : Option Nat :=
  tree.children.findIdx? (·.label.field == some name)

/-- Whether a node is the one that fills a field of the tree above. -/
def fills (node : Node) (name : String) : Bool :=
  match node.above, node.address with
  | some above, position :: _ => position? above name == some position
  | _, _ => false

/-- The nodes beside a node and the node itself: all nodes right below the tree above. -/
def siblings (node : Node) : List Node :=
  match node.above, node.address with
  | some above, _ :: address => (⟨above, none, address⟩ : Node).children
  | _, _ => []

/-- The first of the nodes beside a node that fills a field. -/
def sibling? (node : Node) (name : String) : Option Node :=
  node.siblings.find? (·.field == some name)

/-! ### Visiting -/

/-- How many nodes the trees of some nodes have. -/
def pendingSize (pending : List Node) : Nat := Tree.sizeAll (pending.map (·.tree))

theorem sizeAll_append (front back : List Tree) :
    Tree.sizeAll (front ++ back) = Tree.sizeAll front + Tree.sizeAll back := by
  induction front with
  | nil => simp [Tree.sizeAll]
  | cons tree trees inductionHypothesis =>
    simp [Tree.sizeAll, inductionHypothesis, Nat.add_assoc]

theorem map_tree_below (node : Node) (position : Nat) (trees : List Tree) :
    (node.below position trees).map (·.tree) = trees := by
  induction trees generalizing position with
  | nil => rfl
  | cons tree trees inductionHypothesis => simp [below, inductionHypothesis]

theorem size_eq (tree : Tree) : tree.size = 1 + Tree.sizeAll tree.children := by
  cases tree
  rw [Tree.size, Tree.children]

theorem pendingSize_children (node : Node) (pending : List Node) :
    pendingSize (node.children ++ pending) < pendingSize (node :: pending) := by
  simp only [pendingSize, List.map_append, List.map_cons, children, map_tree_below,
    sizeAll_append, Tree.sizeAll, size_eq]
  omega

theorem tree_mem_children {node child : Node} (member : child ∈ node.children) :
    child.tree ∈ node.tree.children := by
  rw [← map_tree_below node 0 node.tree.children]
  exact List.mem_map_of_mem member

theorem size_le_sizeAll {tree : Tree} {trees : List Tree} (member : tree ∈ trees) :
    tree.size ≤ Tree.sizeAll trees := by
  induction member with
  | head => simp [Tree.sizeAll]
  | tail _ _ inductionHypothesis => simp only [Tree.sizeAll]; omega

/-- A node below another has a smaller tree. -/
theorem size_lt_of_mem_children {node child : Node} (member : child ∈ node.children) :
    child.tree.size < node.tree.size := by
  have := size_le_sizeAll (tree_mem_children member)
  rw [size_eq node.tree]
  omega

theorem mem_children_of_child? {node child : Node} {name : String}
    (found : node.child? name = some child) : child ∈ node.children :=
  (List.mem_filter.mp (List.mem_of_mem_head? found)).1

/-- The pending nodes and all nodes below them, each before the nodes below it. -/
def visit (pending : List Node) : List Node :=
  match pending with
  | [] => []
  | node :: pending => node :: visit (node.children ++ pending)
termination_by pendingSize pending
decreasing_by exact pendingSize_children node pending

/-- A node and all nodes below it, each before the nodes below it. -/
def descendants (node : Node) : List Node := visit [node]

end Node

end CodeAtlas.Syntax
