/-
Syntax trees. A tree is a label and the trees below it, in the order of the source. The label
gives the kind of the node, whether the grammar names it, the field of the node above that it
fills, and the bytes of the source that it covers.
-/

namespace CodeAtlas.Syntax

/-- What is known about a node besides the nodes below it. -/
structure Label where
  kind : String
  named : Bool
  field : Option String
  /-- The offset of the first byte. -/
  start : Nat
  /-- The offset behind the last byte. -/
  stop : Nat
deriving DecidableEq, Repr

/-- A syntax tree. -/
inductive Tree where
  | node (label : Label) (children : List Tree)
deriving Repr

namespace Tree

/-- The label of the root. -/
def label : Tree → Label
  | .node label _ => label

/-- The trees below the root. -/
def children : Tree → List Tree
  | .node _ children => children

/-- The kind of the root. -/
def kind (tree : Tree) : String := tree.label.kind

mutual

/-- How many nodes a tree has. -/
def size : Tree → Nat
  | .node _ children => 1 + sizeAll children

/-- How many nodes some trees have. -/
def sizeAll : List Tree → Nat
  | [] => 0
  | tree :: trees => tree.size + sizeAll trees

end

/-! ### Depths -/

/-- Puts a label above the trees that follow it at greater depths. -/
def attach (depth : Nat) (label : Label) (forest : List (Nat × Tree)) : List (Nat × Tree) :=
  let below := forest.takeWhile fun (other, _) => depth < other
  (depth, .node label (below.map (·.2))) :: forest.drop below.length

/-- The tree whose labels, each with its depth, are listed with every node before the nodes
below it. -/
def ofDepths? (labels : List (Nat × Label)) : Option Tree :=
  (labels.foldr (fun (depth, label) => attach depth label) []).head?.map (·.2)

end Tree

end CodeAtlas.Syntax
