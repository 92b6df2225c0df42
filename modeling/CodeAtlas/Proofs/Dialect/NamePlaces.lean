/-
Where the names of definitions stand. A definition either carries its name, below itself and with
no other definition on the way down to it, or takes it from the variable whose value it is. Each
language has only to show that it looks for names in such places, and passes neither definitions
nor the declarators of variables on the way. Then no place names two definitions: of two that hold
the same name one would stand on the other's way, and the declarator around a name that is taken
has a single value.
-/
import CodeAtlas.Dialect.Table
import CodeAtlas.Extract
import CodeAtlas.Proofs.Dialect.Declarators
import CodeAtlas.Proofs.Syntax.Subtree

namespace CodeAtlas

open Syntax

/-! ### Ways down -/

namespace Syntax.Node

/-- From a node the steps down lead to a goal, past nodes that all meet a condition. -/
inductive LeadsTo (passes : Node → Prop) : Node → Node → Prop
  | goal {goal : Node} : LeadsTo passes goal goal
  | down {node next goal : Node} (pass : passes node) (member : next ∈ node.children)
      (leads : LeadsTo passes next goal) : LeadsTo passes node goal

variable {passes : Node → Prop} {goal node middle : Node}

theorem LeadsTo.holds (leads : node.LeadsTo passes goal) : node.Holds goal := by
  induction leads with
  | goal => exact .refl _
  | down _ member _ inductionHypothesis =>
    exact (Holds.of_mem_children member).trans inductionHypothesis

/-- All nodes between a node and the goal are on the way. -/
theorem LeadsTo.passes_of_holds (leads : node.LeadsTo passes goal) (holds : node.Holds middle)
    (reaches : middle.Holds goal) : middle = goal ∨ passes middle := by
  induction leads with
  | goal => exact .inl (reaches.antisymm holds)
  | down pass member leads inductionHypothesis =>
    rcases holds.eq_or_below with rfl | ⟨other, otherMember, holds⟩
    · exact .inr pass
    · obtain rfl :=
        eq_of_mem_children_of_holds otherMember member (holds.trans reaches) leads.holds
      exact inductionHypothesis holds reaches

section Below

variable {first : Node} (member : first ∈ node.children) (leads : first.LeadsTo passes goal)
include member leads

theorem LeadsTo.holds_below : node.Holds goal := (Holds.of_mem_children member).trans leads.holds

theorem LeadsTo.ne_below : goal ≠ node := by
  rintro rfl
  have same : goal = first := (Holds.of_mem_children member).antisymm leads.holds
  exact not_mem_children_self goal (same ▸ member)

theorem LeadsTo.between_below (holds : node.Holds middle) (reaches : middle.Holds goal) :
    middle = node ∨ middle = goal ∨ passes middle := by
  rcases holds.eq_or_below with same | ⟨other, otherMember, holds⟩
  · exact .inl same
  · obtain rfl := eq_of_mem_children_of_holds otherMember member (holds.trans reaches) leads.holds
    exact .inr (leads.passes_of_holds holds reaches)

end Below

end Syntax.Node

/-! ### Places -/

namespace Dialect

variable {dialect : Dialect} {tree : Tree} {definition name : Node}

/-- A definition carries a name: the name is below it, and no other definition is between them. -/
structure Carries (dialect : Dialect) (definition name : Node) : Prop where
  holds : definition.Holds name
  below : name ≠ definition
  between : ∀ middle, definition.Holds middle → middle.Holds name →
    dialect.isFunction middle = true → middle = definition ∨ middle = name

/-- A definition takes a name from a declarator of the tree: the declarator is that of a variable,
its value is the definition, and the name is its name. -/
structure Takes (tree : Tree) (definition name declarator : Node) : Prop where
  inTree : (Node.root tree).Holds declarator
  kind : declarator.kind = "variable_declarator"
  value : declarator.child? "value" = some definition
  name : declarator.child? "name" = some name

/-- A node that may be passed on the way from a definition down to its name. -/
def MayPass (dialect : Dialect) (node : Node) : Prop :=
  dialect.isFunction node = false ∧ node.kind ≠ "variable_declarator"

/-- Where a name stands, seen from the definition: on a way down from it, or beside it. -/
inductive IsNear (dialect : Dialect) (definition name : Node) : Prop
  | down {first : Node} (member : first ∈ definition.children)
      (leads : first.LeadsTo dialect.MayPass name)
  | beside (kind : definition.above.map Tree.kind = some "variable_declarator")
      (value : definition.fills "value" = true) (found : definition.sibling? "name" = some name)

/-- All names are near their definitions, and the declarators of variables are no definitions. -/
structure NamesNear (dialect : Dialect) : Prop where
  near : ∀ {definition name}, dialect.nameNode? definition = some name →
    dialect.IsNear definition name
  declarator : "variable_declarator" ∉ dialect.functionKinds

theorem carries_of_leadsTo {first : Node} (member : first ∈ definition.children)
    (leads : first.LeadsTo dialect.MayPass name) : dialect.Carries definition name where
  holds := leads.holds_below member
  below := leads.ne_below member
  between := by
    intro middle holds reaches isFunction
    rcases leads.between_below member holds reaches with same | same | ⟨notFunction, -⟩
    · exact .inl same
    · exact .inr same
    · cases notFunction.symm.trans isFunction

/-- What is beside a definition is below the node above it. -/
theorem exists_takes_of_beside (inTree : (Node.root tree).Holds definition)
    (kind : definition.above.map Tree.kind = some "variable_declarator")
    (value : definition.fills "value" = true) (found : definition.sibling? "name" = some name) :
    ∃ declarator, Takes tree definition name declarator := by
  rcases inTree.eq_or_above with rfl | ⟨declarator, inTree, member⟩
  · -- Above the root there is nothing.
    cases kind
  · obtain ⟨position, at?⟩ := List.mem_iff_getElem?.mp member
    rw [(Node.of_getElem?_children at?).1] at kind
    exact ⟨declarator, inTree, Option.some.inj kind, (Node.fills_iff member "value").mp value,
      (Node.sibling?_eq member "name").symm.trans found⟩

theorem IsNear.place (inTree : (Node.root tree).Holds definition)
    (near : dialect.IsNear definition name) :
    (Node.root tree).Holds name ∧
      (dialect.Carries definition name ∨ ∃ declarator, Takes tree definition name declarator) := by
  cases near with
  | down member leads =>
    have carries := carries_of_leadsTo member leads
    exact ⟨inTree.trans carries.holds, .inl carries⟩
  | beside kind value found =>
    obtain ⟨declarator, takes⟩ := exists_takes_of_beside inTree kind value found
    exact ⟨takes.inTree.trans (.of_mem_children (Node.mem_children_of_child? takes.name)),
      .inr ⟨declarator, takes⟩⟩

/-! ### One name, one definition -/

theorem Carries.eq_of_holds {first second : Node} (carries : dialect.Carries first name)
    (also : dialect.Carries second name) (isFunction : dialect.isFunction second = true)
    (holds : first.Holds second) : first = second := by
  rcases carries.between second holds also.holds isFunction with same | same
  · exact same.symm
  · exact absurd same.symm also.below

/-- A name that a definition takes is on no definition's way down: the declarator around the name
would be on the way. -/
theorem not_leadsTo_of_takes (names : dialect.NamesNear)
    {first second declarator : Node} (inTree : (Node.root tree).Holds definition)
    (function : dialect.isFunction definition = true)
    (member : first ∈ definition.children) (takes : Takes tree second name declarator) :
    ¬ first.LeadsTo dialect.MayPass name := by
  intro leads
  have nameMember : name ∈ declarator.children := Node.mem_children_of_child? takes.name
  -- The last step down to the name is made from the node above it, and that is the declarator.
  have holds : definition.Holds declarator := by
    rcases (leads.holds_below member).eq_or_above with same | ⟨above, holds, alsoMember⟩
    · exact absurd same (leads.ne_below member)
    · rwa [Node.eq_of_mem_children (inTree.trans holds) takes.inTree alsoMember nameMember] at holds
  rcases leads.between_below member holds (.of_mem_children nameMember) with same | same | ⟨-, kind⟩
  · rw [← same, isFunction, takes.kind] at function
    exact names.declarator (List.contains_iff_mem.mp function)
  · exact Node.not_mem_children_self name (same ▸ nameMember)
  · exact kind takes.kind

theorem eq_of_takes {first second firstDeclarator secondDeclarator : Node}
    (takes : Takes tree first name firstDeclarator)
    (also : Takes tree second name secondDeclarator) : first = second := by
  have same : firstDeclarator = secondDeclarator :=
    Node.eq_of_mem_children takes.inTree also.inTree (Node.mem_children_of_child? takes.name)
      (Node.mem_children_of_child? also.name)
  exact Option.some.inj (takes.value.symm.trans (same ▸ also.value))

/-- Two definitions of a tree whose names stand at one place are one definition. -/
theorem eq_of_isNear (names : dialect.NamesNear) {first second : Node}
    (inFirst : (Node.root tree).Holds first) (inSecond : (Node.root tree).Holds second)
    (isFirst : dialect.isFunction first = true) (isSecond : dialect.isFunction second = true)
    (near : dialect.IsNear first name) (also : dialect.IsNear second name) : first = second := by
  cases near with
  | down member leads =>
    cases also with
    | down alsoMember alsoLeads =>
      have carries := carries_of_leadsTo member leads
      have alsoCarries := carries_of_leadsTo alsoMember alsoLeads
      -- Both hold the name, so one holds the other, which is then between it and the name.
      rcases Node.holds_or_holds inFirst inSecond carries.holds alsoCarries.holds with
        holds | holds
      · exact carries.eq_of_holds alsoCarries isSecond holds
      · exact (alsoCarries.eq_of_holds carries isFirst holds).symm
    | beside kind value found =>
      obtain ⟨declarator, takes⟩ := exists_takes_of_beside inSecond kind value found
      exact absurd leads (not_leadsTo_of_takes names inFirst isFirst member takes)
  | beside kind value found =>
    obtain ⟨declarator, takes⟩ := exists_takes_of_beside inFirst kind value found
    cases also with
    | down member leads =>
      exact absurd leads (not_leadsTo_of_takes names inSecond isSecond member takes)
    | beside kind value found =>
      obtain ⟨other, alsoTakes⟩ := exists_takes_of_beside inSecond kind value found
      exact eq_of_takes takes alsoTakes

/-! ### Languages -/

theorem isNear_of_child? {field : String} (found : definition.child? field = some name) :
    dialect.IsNear definition name :=
  .down (Node.mem_children_of_child? found) .goal

theorem JavaScript.isNear_of_nameNode? (found : nameNode? definition = some name) :
    dialect.IsNear definition name := by
  unfold nameNode? at found
  split at found
  next own field =>
    split at found
    · cases found
      exact isNear_of_child? field
    · cases found
  next =>
    split at found
    next taken =>
      obtain ⟨kind, value⟩ := Bool.and_eq_true_iff.mp taken
      exact .beside (beq_iff_eq.mp kind) value (Option.filter_eq_some_iff.mp found).1
    next => cases found

namespace Cpp

theorem ne_definition_of_mem :
    ∀ kind ∈ declaratorKinds, kind ∉ Cpp.dialect.functionKinds ∧ kind ≠ "variable_declarator" := by
  decide

theorem mayPass_of_mem {node : Node} (kind : node.kind ∈ declaratorKinds) :
    Cpp.dialect.MayPass node := by
  obtain ⟨notFunction, notVariable⟩ := ne_definition_of_mem _ kind
  refine ⟨?_, notVariable⟩
  rw [isFunction, List.contains_eq_mem, decide_eq_false notFunction]

theorem EndsIn.leadsTo {outer : Node} (ends : EndsIn outer name) :
    outer.LeadsTo Cpp.dialect.MayPass name := by
  induction ends with
  | simple => exact .goal
  | qualified kind right _ inductionHypothesis =>
    have passed := mayPass_of_mem (.tail _ (List.mem_append_right _ (List.mem_append_right _ kind)))
    exact .down passed (Node.mem_children_of_child? right) inductionHypothesis

theorem leadsTo_of_unwrap? {declarator function : Node}
    (unwrapped : unwrap? declarator = some function)
    (leads : function.LeadsTo Cpp.dialect.MayPass name) :
    declarator.LeadsTo Cpp.dialect.MayPass name := by
  fun_induction unwrap? declarator with
  | case1 declarator wrapper inner found _ inductionHypothesis =>
    have passed := mayPass_of_mem
      (.tail _ (List.mem_append_left _ (List.contains_iff_mem.mp wrapper)))
    exact .down passed (mem_children_of_wrapped? found) (inductionHypothesis unwrapped)
  | case2 => cases unwrapped
  | case3 =>
    cases unwrapped
    exact leads

theorem isNear_of_nameNode? (found : nameNode? definition = some name) :
    Cpp.dialect.IsNear definition name := by
  cases field : definition.child? "declarator" with
  | none => simp [nameNode?, functionDeclarator?, field] at found
  | some declarator =>
    obtain ⟨function, inner, unwrapped, kind, inField, ends⟩ :=
      (nameNode?_eq_some_iff field).mp found
    have leads : function.LeadsTo Cpp.dialect.MayPass name :=
      .down (mayPass_of_mem (by rw [kind]; exact .head _)) (Node.mem_children_of_child? inField)
        ends.leadsTo
    exact .down (Node.mem_children_of_child? field) (leadsTo_of_unwrap? unwrapped leads)

end Cpp

theorem namesNear_dialect (language : Language) : language.dialect.NamesNear := by
  cases language with
  | python => exact ⟨isNear_of_child?, by decide⟩
  | javascript => exact ⟨JavaScript.isNear_of_nameNode?, by decide⟩
  | typescript => exact ⟨JavaScript.isNear_of_nameNode?, by decide⟩
  | java => exact ⟨isNear_of_child?, by decide⟩
  | cpp => exact ⟨Cpp.isNear_of_nameNode?, by decide⟩
  | rust => exact ⟨isNear_of_child?, by decide⟩

end Dialect

/-- The definitions of a file for which a name is found. -/
def ParsedFile.NamedDefinition (file : ParsedFile) : Type :=
  {node : Node // node ∈ file.definitions ∧ (file.dialect.name? file.source node).isSome = true}

namespace ParsedFile.NamedDefinition

variable {file : ParsedFile} (definition : file.NamedDefinition)

theorem inTree : file.root.Holds definition.1 :=
  Node.mem_descendants.mp (List.mem_filter.mp definition.2.1).1

theorem isFunction : file.dialect.isFunction definition.1 = true :=
  (List.mem_filter.mp definition.2.1).2

theorem exists_nameNode : ∃ name, file.dialect.nameNode? definition.1 = some name := by
  have named := definition.2.2
  rw [Dialect.name?, Option.isSome_map] at named
  exact Option.isSome_iff_exists.mp named

end ParsedFile.NamedDefinition

/-- In every language and every tree, the definitions for which a name is found can be given nodes
of the tree, each its own: the text of the node is the name, and the node is below the definition
with no other definition between them, or it is the name of the variable whose value the
definition is. -/
theorem definitions_named_by_own_nodes (language : Language) (source : Source) (tree : Tree) :
    ∃ place : (ParsedFile.mk language.dialect source tree).NamedDefinition →
        {node // (Node.root tree).Holds node},
      Function.Injective place ∧
        ∀ definition,
          language.dialect.name? source definition.1 =
              some (source.stringOf (place definition).1) ∧
            (language.dialect.Carries definition.1 (place definition).1 ∨
              ∃ declarator, Dialect.Takes tree definition.1 (place definition).1 declarator) := by
  have names := Dialect.namesNear_dialect language
  choose name found using fun definition :
    (ParsedFile.mk language.dialect source tree).NamedDefinition => definition.exists_nameNode
  have place (definition) := (names.near (found definition)).place definition.inTree
  refine ⟨fun definition => ⟨name definition, (place definition).1⟩, fun first second same => ?_,
    fun definition => ⟨?_, (place definition).2⟩⟩
  · have sameName : name first = name second := congrArg Subtype.val same
    refine Subtype.ext (Dialect.eq_of_isNear names first.inTree second.inTree first.isFunction
      second.isFunction (names.near (found first)) ?_)
    rw [sameName]
    exact names.near (found second)
  · rw [Dialect.name?, found definition, Option.map_some]

end CodeAtlas
