/-
How complex a node is: one more than the number of decisions that it holds, at any depth. What a
node holds is the node itself and what the nodes right below it hold, so the decisions add up from
below; and what is counted for a node is counted again for all nodes around it. The sum is taken
modulo 2^32, so all of this holds for a node with too few decisions for the sum to wrap around.
-/
import Mathlib.Data.Set.Card
import CodeAtlas.Extract
import CodeAtlas.Proofs.Syntax.Subtree

namespace CodeAtlas.Dialect

open Syntax

variable {dialect : Dialect} {node : Node}

/-! ### Decisions -/

/-- A node is a decision. Its kind is that of a decision, and if it is an expression with two
operands, a token right below it is a logical operator. -/
structure Decides (dialect : Dialect) (node : Node) : Prop where
  kind : node.kind ∈ dialect.decisionKinds
  operator : node.kind = "binary_expression" →
    ∃ token ∈ node.children, token.isNamed = false ∧ token.kind ∈ ["&&", "||", "and", "or"]

theorem hasLogicalOperator_iff : hasLogicalOperator node = true ↔
    ∃ token ∈ node.children, token.isNamed = false ∧ token.kind ∈ ["&&", "||", "and", "or"] := by
  rw [hasLogicalOperator, List.any_eq_true]
  refine exists_congr fun token => and_congr_right' ?_
  rw [Bool.and_eq_true, Bool.not_eq_true', logicalOperators, List.contains_iff_mem]

theorem isDecision_iff : dialect.isDecision node = true ↔ dialect.Decides node := by
  rw [isDecision, Bool.and_eq_true, List.contains_iff_mem, Bool.or_eq_true, bne_iff_ne,
    hasLogicalOperator_iff, ← Decidable.imp_iff_not_or]
  exact ⟨fun ⟨kind, operator⟩ => ⟨kind, operator⟩, fun ⟨kind, operator⟩ => ⟨kind, operator⟩⟩

instance (dialect : Dialect) (node : Node) : Decidable (dialect.Decides node) :=
  decidable_of_iff _ isDecision_iff

/-- The decisions that a node holds. -/
def decisionsIn (dialect : Dialect) (node : Node) : Set Node :=
  {inner | node.Holds inner ∧ dialect.Decides inner}

theorem ncard_decisionsIn (dialect : Dialect) (node : Node) :
    (dialect.decisionsIn node).ncard = node.descendants.countP dialect.isDecision := by
  classical
  have listed : dialect.decisionsIn node =
      ((node.descendants.filter dialect.isDecision).toFinset : Set Node) := by
    ext inner
    rw [List.coe_toFinset]
    show node.Holds inner ∧ dialect.Decides inner ↔
      inner ∈ node.descendants.filter dialect.isDecision
    rw [List.mem_filter, Node.mem_descendants, isDecision_iff]
  rw [listed, Set.ncard_coe_finset, List.toFinset_card_of_nodup (node.nodup_descendants.filter _),
    ← List.countP_eq_length_filter]

/-! ### Sums of decisions -/

theorem ncard_decisionsIn_eq_add (dialect : Dialect) (node : Node) :
    (dialect.decisionsIn node).ncard =
      (if dialect.Decides node then 1 else 0) +
        (node.children.map fun child => (dialect.decisionsIn child).ncard).sum := by
  simp only [ncard_decisionsIn, ← isDecision_iff]
  rw [Node.descendants_eq_cons, List.countP_cons, Node.visit_eq_flatMap, List.countP_flatMap,
    Nat.add_comm]
  rfl

/-- Nodes that are apart hold no more decisions together than a node that holds them all. -/
theorem sum_ncard_decisionsIn_le (dialect : Dialect) {parts : List Node}
    (inside : ∀ part ∈ parts, node.Holds part) (apart : parts.Pairwise Node.Apart) :
    (parts.map fun part => (dialect.decisionsIn part).ncard).sum ≤
      (dialect.decisionsIn node).ncard := by
  have once : (parts.flatMap Node.descendants).Nodup := by
    refine List.nodup_flatMap.mpr ⟨fun part _ => part.nodup_descendants, apart.imp ?_⟩
    intro first second parted inner inFirst inSecond
    exact parted inner (Node.mem_descendants.mp inFirst) (Node.mem_descendants.mp inSecond)
  have held : parts.flatMap Node.descendants ⊆ node.descendants := by
    intro inner member
    obtain ⟨part, inParts, inPart⟩ := List.mem_flatMap.mp member
    exact Node.mem_descendants.mpr ((inside part inParts).trans (Node.mem_descendants.mp inPart))
  simp only [ncard_decisionsIn]
  calc (parts.map fun part => part.descendants.countP dialect.isDecision).sum
      = (parts.flatMap Node.descendants).countP dialect.isDecision := List.countP_flatMap.symm
    _ ≤ node.descendants.countP dialect.isDecision :=
      (List.subperm_of_subset once held).countP_le _

theorem ncard_decisionsIn_le (dialect : Dialect) {outer inner : Node} (holds : outer.Holds inner) :
    (dialect.decisionsIn inner).ncard ≤ (dialect.decisionsIn outer).ncard := by
  have alone : ([inner].map fun part => (dialect.decisionsIn part).ncard).sum ≤
      (dialect.decisionsIn outer).ncard :=
    dialect.sum_ncard_decisionsIn_le (by simpa using holds) (List.pairwise_singleton _ _)
  simpa using alone

/-! ### Complexity -/

theorem toNat_complexity (few : (dialect.decisionsIn node).ncard < 2 ^ 32 - 1) :
    (dialect.complexity node).toNat = 1 + (dialect.decisionsIn node).ncard := by
  rw [ncard_decisionsIn] at few ⊢
  rw [complexity, UInt32.toNat_add, Nat.toUInt32_eq, UInt32.toNat_ofNat']
  have small : node.descendants.countP dialect.isDecision % 2 ^ 32 =
      node.descendants.countP dialect.isDecision := Nat.mod_eq_of_lt (by omega)
  rw [small, UInt32.toNat_one, Nat.mod_eq_of_lt (by omega)]

theorem toNat_complexity_of_holds (few : (dialect.decisionsIn node).ncard < 2 ^ 32 - 1)
    {inner : Node} (holds : node.Holds inner) :
    (dialect.complexity inner).toNat = 1 + (dialect.decisionsIn inner).ncard :=
  toNat_complexity (Nat.lt_of_le_of_lt (dialect.ncard_decisionsIn_le holds) few)

/-- The complexity of a node with fewer than 2^32 - 1 decisions, in any language, is one more than
their number. So it adds up: what it has above one is what the nodes right below have above one,
and one more if the node itself is a decision. It is at least one; it is no smaller than that of
any node inside; and nodes inside that are apart have together no more above one than it has. -/
theorem complexity_adds_up (dialect : Dialect) (node : Node)
    (few : (dialect.decisionsIn node).ncard < 2 ^ 32 - 1) :
    (dialect.complexity node).toNat = 1 + (dialect.decisionsIn node).ncard ∧
      (dialect.complexity node).toNat - 1 =
        (if dialect.Decides node then 1 else 0) +
          (node.children.map fun child => (dialect.complexity child).toNat - 1).sum ∧
      1 ≤ (dialect.complexity node).toNat ∧
      (∀ inner, node.Holds inner → dialect.complexity inner ≤ dialect.complexity node) ∧
      ∀ parts : List Node, (∀ part ∈ parts, node.Holds part) → parts.Pairwise Node.Apart →
        (parts.map fun part => (dialect.complexity part).toNat - 1).sum ≤
          (dialect.complexity node).toNat - 1 := by
  have above {inner : Node} (holds : node.Holds inner) :
      (dialect.complexity inner).toNat - 1 = (dialect.decisionsIn inner).ncard := by
    rw [toNat_complexity_of_holds few holds, Nat.add_sub_cancel_left]
  have aboveAll {parts : List Node} (inside : ∀ part ∈ parts, node.Holds part) :
      (parts.map fun part => (dialect.complexity part).toNat - 1) =
        parts.map fun part => (dialect.decisionsIn part).ncard :=
    List.map_congr_left fun part member => above (inside part member)
  refine ⟨toNat_complexity few, ?_, ?_, fun inner holds => ?_, fun parts inside apart => ?_⟩
  · rw [above (.refl node), aboveAll fun child member => .of_mem_children member]
    exact dialect.ncard_decisionsIn_eq_add node
  · rw [toNat_complexity few]
    exact Nat.le_add_right 1 _
  · rw [UInt32.le_iff_toNat_le, toNat_complexity few, toNat_complexity_of_holds few holds]
    exact Nat.add_le_add_left (dialect.ncard_decisionsIn_le holds) 1
  · rw [above (.refl node), aboveAll inside]
    exact dialect.sum_ncard_decisionsIn_le inside apart

/-- A script with two functions inside another one. Only the operator of the first is logical. -/
def nestedScript : Tree :=
  .node ⟨"program", true, none, 0, 65⟩
    [.node ⟨"function_declaration", true, none, 0, 65⟩
      [.node ⟨"function", false, none, 0, 8⟩ [],
        .node ⟨"identifier", true, some "name", 9, 10⟩ [],
        .node ⟨"formal_parameters", true, some "parameters", 10, 12⟩
          [.node ⟨"(", false, none, 10, 11⟩ [], .node ⟨")", false, none, 11, 12⟩ []],
        .node ⟨"statement_block", true, some "body", 13, 65⟩
          [.node ⟨"\x7b", false, none, 13, 14⟩ [],
            .node ⟨"function_declaration", true, none, 15, 39⟩
              [.node ⟨"function", false, none, 15, 23⟩ [],
                .node ⟨"identifier", true, some "name", 24, 25⟩ [],
                .node ⟨"formal_parameters", true, some "parameters", 25, 27⟩
                  [.node ⟨"(", false, none, 25, 26⟩ [], .node ⟨")", false, none, 26, 27⟩ []],
                .node ⟨"statement_block", true, some "body", 28, 39⟩
                  [.node ⟨"\x7b", false, none, 28, 29⟩ [],
                    .node ⟨"expression_statement", true, none, 30, 37⟩
                      [.node ⟨"binary_expression", true, none, 30, 36⟩
                        [.node ⟨"identifier", true, some "left", 30, 31⟩ [],
                          .node ⟨"&&", false, some "operator", 32, 34⟩ [],
                          .node ⟨"identifier", true, some "right", 35, 36⟩ []],
                        .node ⟨";", false, none, 36, 37⟩ []],
                    .node ⟨"\x7d", false, none, 38, 39⟩ []]],
            .node ⟨"function_declaration", true, none, 40, 63⟩
              [.node ⟨"function", false, none, 40, 48⟩ [],
                .node ⟨"identifier", true, some "name", 49, 50⟩ [],
                .node ⟨"formal_parameters", true, some "parameters", 50, 52⟩
                  [.node ⟨"(", false, none, 50, 51⟩ [], .node ⟨")", false, none, 51, 52⟩ []],
                .node ⟨"statement_block", true, some "body", 53, 63⟩
                  [.node ⟨"\x7b", false, none, 53, 54⟩ [],
                    .node ⟨"expression_statement", true, none, 55, 61⟩
                      [.node ⟨"binary_expression", true, none, 55, 60⟩
                        [.node ⟨"identifier", true, some "left", 55, 56⟩ [],
                          .node ⟨"+", false, some "operator", 57, 58⟩ [],
                          .node ⟨"identifier", true, some "right", 59, 60⟩ []],
                        .node ⟨";", false, none, 60, 61⟩ []],
                    .node ⟨"\x7d", false, none, 62, 63⟩ []]],
            .node ⟨"\x7d", false, none, 64, 65⟩ []]]]

/-- The outer function is as complex as the one inside that decides, and the other one adds
nothing. -/
theorem nestedScript_complexity_adds_up :
    ∃ outer first second : Node,
      (JavaScript.dialect.decisionsIn outer).ncard < 2 ^ 32 - 1 ∧
        (outer.Holds first ∧ outer.Holds second) ∧ first.Apart second ∧
        JavaScript.dialect.complexity outer = 2 ∧ JavaScript.dialect.complexity first = 2 ∧
        JavaScript.dialect.complexity second = 1 ∧
        ((JavaScript.dialect.complexity first).toNat - 1) +
            ((JavaScript.dialect.complexity second).toNat - 1) ≤
          (JavaScript.dialect.complexity outer).toNat - 1 := by
  have shown : ((Node.root nestedScript).descendants.filter JavaScript.dialect.isFunction).map
      (fun node => (node.way, JavaScript.dialect.complexity node,
        node.descendants.countP JavaScript.dialect.isDecision)) =
      [([0], 2, 1), ([0, 3, 1], 2, 1), ([0, 3, 2], 1, 0)] := by
    decide +kernel
  obtain ⟨outer, rest, split, outerShown, restShown⟩ := List.map_eq_cons_iff.mp shown
  obtain ⟨first, last, rfl, firstShown, lastShown⟩ := List.map_eq_cons_iff.mp restShown
  obtain ⟨second, none, rfl, secondShown, -⟩ := List.map_eq_cons_iff.mp lastShown
  simp only [Prod.mk.injEq] at outerShown firstShown secondShown
  obtain ⟨outerWay, outerComplexity, outerCount⟩ := outerShown
  obtain ⟨firstWay, firstComplexity, -⟩ := firstShown
  obtain ⟨secondWay, secondComplexity, -⟩ := secondShown
  have inScript {node : Node} (member : node ∈ outer :: first :: second :: none) :
      (Node.root nestedScript).Holds node := by
    rw [← split] at member
    exact Node.mem_descendants.mp (List.mem_filter.mp member).1
  have outerIn := inScript (.head _)
  have firstIn := inScript (.tail _ (.head _))
  have secondIn := inScript (.tail _ (.tail _ (.head _)))
  have holdsFirst : outer.Holds first :=
    Node.holds_of_prefix_way outerIn firstIn (by rw [outerWay, firstWay]; decide)
  have holdsSecond : outer.Holds second :=
    Node.holds_of_prefix_way outerIn secondIn (by rw [outerWay, secondWay]; decide)
  have apart : first.Apart second := by
    refine Node.apart_of_not_holds firstIn secondIn (fun holds => ?_) fun holds => ?_
    all_goals
      have leads := holds.prefix_way
      rw [firstWay, secondWay] at leads
      exact absurd leads (by decide)
  have few : (JavaScript.dialect.decisionsIn outer).ncard < 2 ^ 32 - 1 := by
    rw [ncard_decisionsIn, outerCount]
    decide
  obtain ⟨-, -, -, -, parted⟩ := complexity_adds_up JavaScript.dialect outer few
  have bound := parted [first, second] (by simp [holdsFirst, holdsSecond])
    (List.pairwise_pair.mpr apart)
  refine ⟨outer, first, second, few, ⟨holdsFirst, holdsSecond⟩, apart, outerComplexity,
    firstComplexity, secondComplexity, ?_⟩
  simpa using bound

end CodeAtlas.Dialect
