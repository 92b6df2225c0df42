/-
Which definitions in C++ have names. A definition declares its name through a chain of declarators:
pointers, references, parentheses and attributes that wrap another declarator, the declarators of
functions, and at the end a name, which may be qualified. The name is looked for behind the first
function declarator of the chain, and only right behind it. So a definition has its innermost name
if nothing stands between its function declarator and the name, and if each declarator around the
function declarator has what it wraps in its field or as its last named node. In all other cases
the definition has no name at all.
-/
import CodeAtlas.Dialect.Cpp

namespace CodeAtlas.Dialect.Cpp

open Syntax

/-! ### Kinds -/

/-- The kinds of names, qualified or not. -/
def nameKinds : List String := simpleNames ++ qualifiedNames

/-- The kinds of declarators: those that wrap another, those of functions, and names. -/
def declaratorKinds : List String := "function_declarator" :: (wrappers ++ nameKinds)

theorem not_mem_simpleNames : ∀ kind ∈ qualifiedNames, kind ∉ simpleNames := by decide

theorem not_mem_wrappers : ∀ kind ∈ "function_declarator" :: nameKinds, kind ∉ wrappers := by decide

theorem ne_functionDeclarator : ∀ kind ∈ nameKinds, kind ≠ "function_declarator" := by decide

/-! ### Names -/

/-- A name ends in another one: in itself if it is not qualified, and else in what the name at its
right ends in. -/
inductive EndsIn : Node → Node → Prop
  | simple {name : Node} (kind : name.kind ∈ simpleNames) : EndsIn name name
  | qualified {outer inner name : Node} (kind : outer.kind ∈ qualifiedNames)
      (right : outer.child? "name" = some inner) (ends : EndsIn inner name) : EndsIn outer name

theorem EndsIn.kind_mem {outer name : Node} (ends : EndsIn outer name) :
    outer.kind ∈ nameKinds := by
  cases ends with
  | simple kind => exact List.mem_append_left _ kind
  | qualified kind => exact List.mem_append_right _ kind

theorem rightmostName?_of_qualified {node : Node} (kind : node.kind ∈ qualifiedNames) :
    rightmostName? node = (node.child? "name").bind rightmostName? := by
  have notSimple : ¬ simpleNames.contains node.kind = true :=
    fun simple => not_mem_simpleNames _ kind (List.contains_iff_mem.mp simple)
  rw [rightmostName?, if_neg notSimple, if_pos (List.contains_iff_mem.mpr kind)]
  split
  next inner found =>
    show rightmostName? inner = _
    rw [found, Option.bind_some]
  next found => rw [found, Option.bind_none]

theorem rightmostName?_eq_some_iff {node name : Node} :
    rightmostName? node = some name ↔ EndsIn node name := by
  constructor
  · intro found
    fun_induction rightmostName? node with
    | case1 node simple =>
      cases found
      exact .simple (List.contains_iff_mem.mp simple)
    | case2 node _ qualified inner right _ inductionHypothesis =>
      exact .qualified (List.contains_iff_mem.mp qualified) right (inductionHypothesis found)
    | case3 => cases found
    | case4 => cases found
  · intro ends
    induction ends with
    | simple kind => rw [rightmostName?, if_pos (List.contains_iff_mem.mpr kind)]
    | qualified kind right _ inductionHypothesis =>
      rw [rightmostName?_of_qualified kind, right, Option.bind_some, inductionHypothesis]

/-! ### Declarators -/

/-- A declarator wraps another one: in its field or, if it has no such field, as the only
declarator among its named nodes. -/
inductive Wraps (outer inner : Node) : Prop
  | field (found : outer.child? "declarator" = some inner)
  | only (noField : outer.child? "declarator" = none)
      (only : (outer.namedChildren.filter fun child => declaratorKinds.contains child.kind) = [inner])

/-- A declarator declares a name: going from each declarator to the one that it wraps leads to the
name, past a number of function declarators. -/
inductive Declares : Node → Nat → Node → Prop
  | name {node name : Node} (ends : EndsIn node name) : Declares node 0 name
  | wrapper {outer inner name : Node} {functions : Nat} (kind : outer.kind ∈ wrappers)
      (wraps : Wraps outer inner) (declares : Declares inner functions name) :
      Declares outer functions name
  | function {outer inner name : Node} {functions : Nat}
      (kind : outer.kind = "function_declarator") (wraps : Wraps outer inner)
      (declares : Declares inner functions name) : Declares outer (functions + 1) name

/-- A declarator is plain: each declarator around its function declarator has what it wraps in its
field or as its last named node, and the function declarator has a name right in its field. -/
inductive Plain : Node → Prop
  | function {outer inner : Node} (kind : outer.kind = "function_declarator")
      (found : outer.child? "declarator" = some inner) (name : inner.kind ∈ nameKinds) : Plain outer
  | wrapper {outer inner : Node} (kind : outer.kind ∈ wrappers) (wraps : Wraps outer inner)
      (reached : outer.child? "declarator" = some inner ∨
        outer.namedChildren.getLast? = some inner)
      (plain : Plain inner) : Plain outer

theorem Wraps.unique {outer first second : Node} (wraps : Wraps outer first)
    (also : Wraps outer second) : first = second := by
  cases wraps with
  | field found =>
    cases also with
    | field alsoFound => exact Option.some.inj (found.symm.trans alsoFound)
    | only noField => cases found.symm.trans noField
  | only noField only =>
    cases also with
    | field found => cases noField.symm.trans found
    | only _ alsoOnly => exact List.head_eq_of_cons_eq (only.symm.trans alsoOnly)

theorem Wraps.wrapped?_eq {outer inner : Node} (wraps : Wraps outer inner)
    (reached : outer.child? "declarator" = some inner ∨
      outer.namedChildren.getLast? = some inner) : wrapped? outer = some inner := by
  rw [wrapped?]
  cases wraps with
  | field found => rw [found, Option.some_or]
  | only noField => rw [noField, Option.none_or, reached.resolve_left (by simp [noField])]

/-- Where a declarator is not followed to what it wraps, it is followed to no declarator. -/
theorem Wraps.reached_or_not_declarator {outer inner other : Node} (wraps : Wraps outer inner)
    (found : wrapped? outer = some other) :
    (other = inner ∧ (outer.child? "declarator" = some inner ∨
        outer.namedChildren.getLast? = some inner)) ∨ other.kind ∉ declaratorKinds := by
  rw [wrapped?] at found
  cases wraps with
  | field field =>
    rw [field, Option.some_or] at found
    exact .inl ⟨(Option.some.inj found).symm, .inl field⟩
  | only noField only =>
    rw [noField, Option.none_or] at found
    by_cases declarator : other.kind ∈ declaratorKinds
    · have member : other ∈ outer.namedChildren.filter
          fun child => declaratorKinds.contains child.kind :=
        List.mem_filter.mpr ⟨List.mem_of_getLast? found, List.contains_iff_mem.mpr declarator⟩
      rw [only] at member
      obtain rfl := List.mem_singleton.mp member
      exact .inl ⟨rfl, .inr found⟩
    · exact .inr declarator

theorem unwrap?_of_mem {node : Node} (kind : node.kind ∈ wrappers) :
    unwrap? node = (wrapped? node).bind unwrap? := by
  rw [unwrap?, if_pos (List.contains_iff_mem.mpr kind)]
  split
  next inner found =>
    show unwrap? inner = _
    rw [found, Option.bind_some]
  next found => rw [found, Option.bind_none]

theorem unwrap?_of_not_mem {node : Node} (kind : node.kind ∉ wrappers) :
    unwrap? node = some node := by
  rw [unwrap?, if_neg fun wrapper => kind (List.contains_iff_mem.mp wrapper)]

theorem unwrap?_of_function {node : Node} (kind : node.kind = "function_declarator") :
    unwrap? node = some node :=
  unwrap?_of_not_mem (not_mem_wrappers _ (by rw [kind]; exact .head _))

theorem nameNode?_eq_some_iff {definition declarator name : Node}
    (found : definition.child? "declarator" = some declarator) :
    nameNode? definition = some name ↔
      ∃ function inner, unwrap? declarator = some function ∧
        function.kind = "function_declarator" ∧ function.child? "declarator" = some inner ∧
        EndsIn inner name := by
  simp only [nameNode?, functionDeclarator?, found, Option.bind_some, Option.bind_eq_some_iff,
    Option.filter_eq_some_iff, beq_iff_eq, rightmostName?_eq_some_iff]
  constructor
  · rintro ⟨inner, ⟨function, ⟨unwrapped, kind⟩, field⟩, ends⟩
    exact ⟨function, inner, unwrapped, kind, field, ends⟩
  · rintro ⟨function, inner, unwrapped, kind, field, ends⟩
    exact ⟨inner, ⟨function, ⟨unwrapped, kind⟩, field⟩, ends⟩

/-! ### Plain declarators -/

/-- Behind a plain declarator there is one function declarator, and right behind that the name. -/
theorem Plain.unwrap?_eq {declarator name : Node} {functions : Nat} (plain : Plain declarator)
    (declares : Declares declarator functions name) :
    functions = 1 ∧ ∃ function inner, unwrap? declarator = some function ∧
      function.kind = "function_declarator" ∧ function.child? "declarator" = some inner ∧
      EndsIn inner name := by
  induction plain generalizing functions with
  | @function outer inner kind found nameKind =>
    cases declares with
    | name ends => exact absurd kind (ne_functionDeclarator _ ends.kind_mem)
    | wrapper wrapper => exact absurd wrapper (not_mem_wrappers _ (by rw [kind]; exact .head _))
    | function _ wraps declares =>
      obtain rfl := wraps.unique (.field found)
      cases declares with
      | name ends => exact ⟨rfl, outer, _, unwrap?_of_function kind, kind, found, ends⟩
      | wrapper wrapper => exact absurd wrapper (not_mem_wrappers _ (.tail _ nameKind))
      | function kind => exact absurd kind (ne_functionDeclarator _ nameKind)
  | wrapper kind wraps reached _ inductionHypothesis =>
    cases declares with
    | name ends => exact absurd kind (not_mem_wrappers _ (.tail _ ends.kind_mem))
    | wrapper _ alsoWraps declares =>
      obtain rfl := alsoWraps.unique wraps
      rw [unwrap?_of_mem kind, wraps.wrapped?_eq reached, Option.bind_some]
      exact inductionHypothesis declares
    | function function => exact absurd kind (not_mem_wrappers _ (by rw [function]; exact .head _))

/-- A declarator behind which a name is found is plain. -/
theorem Declares.plain {declarator name function inner found : Node} {functions : Nat}
    (declares : Declares declarator functions name) (unwrapped : unwrap? declarator = some function)
    (kind : function.kind = "function_declarator")
    (field : function.child? "declarator" = some inner) (ends : EndsIn inner found) :
    Plain declarator := by
  induction declares with
  | name nameEnds =>
    rw [unwrap?_of_not_mem (not_mem_wrappers _ (.tail _ nameEnds.kind_mem))] at unwrapped
    obtain rfl := Option.some.inj unwrapped
    exact absurd kind (ne_functionDeclarator _ nameEnds.kind_mem)
  | wrapper wrapper wraps _ inductionHypothesis =>
    rw [unwrap?_of_mem wrapper] at unwrapped
    obtain ⟨other, followed, unwrapped⟩ := Option.bind_eq_some_iff.mp unwrapped
    rcases wraps.reached_or_not_declarator followed with ⟨rfl, reached⟩ | notDeclarator
    · exact .wrapper wrapper wraps reached (inductionHypothesis unwrapped)
    · -- What is no declarator wraps nothing, and it is no function declarator.
      rw [unwrap?_of_not_mem fun member =>
        notDeclarator (.tail _ (List.mem_append_left _ member))] at unwrapped
      obtain rfl := Option.some.inj unwrapped
      exact absurd (kind ▸ List.mem_cons_self) notDeclarator
  | function outerKind =>
    rw [unwrap?_of_function outerKind] at unwrapped
    obtain rfl := Option.some.inj unwrapped
    exact .function kind field ends.kind_mem

/-- A definition whose declarator declares a name has that name if the declarator is plain, and
else no name. So it has no name if there is another function declarator on the way to the name, as
in a function that returns a pointer to a function. -/
theorem definition_named_iff_plain (source : Source) {definition declarator name : Node}
    {functions : Nat} (found : definition.child? "declarator" = some declarator)
    (declares : Declares declarator functions name) :
    (Plain declarator → dialect.name? source definition = some (source.stringOf name)) ∧
      (¬ Plain declarator → dialect.name? source definition = none) ∧
      (functions ≠ 1 → dialect.name? source definition = none) := by
  have unnamed (notPlain : ¬ Plain declarator) : dialect.name? source definition = none := by
    rw [name?, Option.map_eq_none_iff, Option.eq_none_iff_forall_ne_some]
    intro other named
    obtain ⟨function, inner, unwrapped, kind, field, ends⟩ :=
      (nameNode?_eq_some_iff found).mp named
    exact notPlain (declares.plain unwrapped kind field ends)
  refine ⟨fun plain => ?_, unnamed, fun several => unnamed fun plain => ?_⟩
  · have named : dialect.nameNode? definition = some name :=
      (nameNode?_eq_some_iff found).mpr (plain.unwrap?_eq declares).2
    rw [name?, named, Option.map_some]
  · exact several (plain.unwrap?_eq declares).1

/-! A function that returns a pointer to a function: `int (*pick(int x))(int)`, with a body. -/

/-- The declarator of the function itself. -/
def pickDeclarator : Tree :=
  .node ⟨"function_declarator", true, some "declarator", 6, 17⟩
    [.node ⟨"identifier", true, some "declarator", 6, 10⟩ [],
      .node ⟨"parameter_list", true, some "parameters", 10, 17⟩
        [.node ⟨"(", false, none, 10, 11⟩ [],
          .node ⟨"parameter_declaration", true, none, 11, 16⟩
            [.node ⟨"primitive_type", true, some "type", 11, 14⟩ [],
              .node ⟨"identifier", true, some "declarator", 15, 16⟩ []],
          .node ⟨")", false, none, 16, 17⟩ []]]

/-- The pointer around it, in parentheses. -/
def pickResult : Tree :=
  .node ⟨"parenthesized_declarator", true, some "declarator", 4, 18⟩
    [.node ⟨"(", false, none, 4, 5⟩ [],
      .node ⟨"pointer_declarator", true, none, 5, 17⟩
        [.node ⟨"*", false, none, 5, 6⟩ [], pickDeclarator],
      .node ⟨")", false, none, 17, 18⟩ []]

/-- The definition, with the declarator of the function that the result points to. -/
def pickDefinition : Tree :=
  .node ⟨"function_definition", true, none, 0, 37⟩
    [.node ⟨"primitive_type", true, some "type", 0, 3⟩ [],
      .node ⟨"function_declarator", true, some "declarator", 4, 23⟩
        [pickResult,
          .node ⟨"parameter_list", true, some "parameters", 18, 23⟩
            [.node ⟨"(", false, none, 18, 19⟩ [],
              .node ⟨"parameter_declaration", true, none, 19, 22⟩
                [.node ⟨"primitive_type", true, some "type", 19, 22⟩ []],
              .node ⟨")", false, none, 22, 23⟩ []]],
      .node ⟨"compound_statement", true, some "body", 24, 37⟩
        [.node ⟨"\x7b", false, none, 24, 25⟩ [],
          .node ⟨"return_statement", true, none, 26, 35⟩
            [.node ⟨"return", false, none, 26, 32⟩ [],
              .node ⟨"number_literal", true, none, 33, 34⟩ [],
              .node ⟨";", false, none, 34, 35⟩ []],
          .node ⟨"\x7d", false, none, 36, 37⟩ []]]

/-- The text of the definition. -/
def pickSource : Source := ⟨"int (*pick(int x))(int) \x7b return 0; \x7d".toList⟩

/-- The declarator of the definition declares `pick` past two function declarators, and the
definition has no name. -/
theorem pickDefinition_has_no_name :
    ∃ declarator name, (Node.root pickDefinition).child? "declarator" = some declarator ∧
      Declares declarator 2 name ∧ pickSource.stringOf name = "pick" ∧
      dialect.name? pickSource (Node.root pickDefinition) = none := by
  have chain : ∃ declarator name,
      (Node.root pickDefinition).child? "declarator" = some declarator ∧
        Declares declarator 2 name ∧ pickSource.stringOf name = "pick" :=
    ⟨_, _, rfl,
      .function rfl (.field rfl) <| .wrapper (by decide) (.only rfl rfl) <|
        .wrapper (by decide) (.field rfl) <| .function rfl (.field rfl) <|
        .name (.simple (by decide)),
      by decide +kernel⟩
  obtain ⟨declarator, name, found, declares, text⟩ := chain
  obtain ⟨-, -, unnamed⟩ := definition_named_iff_plain pickSource found declares
  exact ⟨declarator, name, found, declares, text, unnamed (by decide)⟩

end CodeAtlas.Dialect.Cpp
