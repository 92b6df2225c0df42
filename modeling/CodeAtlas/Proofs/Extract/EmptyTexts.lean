/-
Where a text of a function can be empty. A parser that recovers from an error puts a node where
something is missing, and such a node covers nothing. Names, imports and the parameters in a list
are dropped if they are empty, so none of them is. But the name that a call calls is recorded as it
stands, and so is a single parameter without parentheses; the empty text is recorded exactly where
one of them is missing.
-/
import CodeAtlas.Proofs.Extract.Excerpts
import CodeAtlas.Proofs.Extract.Lookup

namespace CodeAtlas

open Syntax

/-! ### Nodes that cover nothing -/

namespace Syntax.Source

theorem stringOf_eq_empty_iff (source : Source) (node : Node) :
    source.stringOf node = "" ↔ source.textOf node = [] :=
  String.ofList_eq_empty_iff

/-- A node that is placed in the text covers nothing exactly if it stops where it starts. -/
theorem textOf_eq_nil_iff {source : Source} {node : Node} (covers : source.Covers node.tree.label) :
    source.textOf node = [] ↔ node.tree.label.start = node.tree.label.stop := by
  obtain ⟨front, part, back, cut⟩ := covers.exists_cut
  have text : source.textOf node = part := cut.slice_eq
  rw [text, cut.start_eq, cut.stop_eq]
  constructor
  · rintro rfl
    rw [List.append_nil]
  · intro same
    cases part with
    | nil => rfl
    | cons char part =>
      rw [Text.encode, Text.encode, List.flatMap_append, List.length_append] at same
      have positive := char.utf8Size_pos
      have longer := length_encode_cons char part
      rw [Text.encode] at longer
      omega

end Syntax.Source

/-! ### Parameters -/

namespace Dialect

variable {source : Source} {node : Node} {render : Node → String}

theorem empty_not_mem_showParameters {list : Node} : "" ∉ showParameters render list := by
  intro member
  cases (List.mem_filter.mp member).2

/-- The single parameter of a function that has no parentheses around it. -/
def JavaScript.bareParameter? (node : Node) : Option Node :=
  ((node.child? "parameters").or (node.child? "parameter")).filter
    (·.kind != "formal_parameters")

theorem JavaScript.empty_mem_parametersBy_iff :
    "" ∈ JavaScript.parametersBy render source node ↔
      ∃ parameter, JavaScript.bareParameter? node = some parameter ∧
        source.textOf parameter = [] := by
  unfold JavaScript.parametersBy JavaScript.bareParameter?
  cases (node.child? "parameters").or (node.child? "parameter") with
  | none => exact iff_of_false List.not_mem_nil nofun
  | some list =>
    by_cases parenthesized : list.kind = "formal_parameters"
    · simp [parenthesized, empty_not_mem_showParameters]
    · simp only [beq_eq_false_iff_ne.mpr parenthesized, Bool.false_eq_true, if_false,
        List.mem_singleton, Option.filter_some, bne, Bool.not_false, if_true, Option.some.injEq,
        exists_eq_left']
      rw [eq_comm, source.stringOf_eq_empty_iff]

end Dialect

/-- The parameter that a definition shows as it stands, whatever it covers. Only a single parameter
without parentheses is shown so. -/
def Language.bareParameter? : Language → Node → Option Node
  | .javascript | .typescript => Dialect.JavaScript.bareParameter?
  | .python | .java | .cpp | .rust => fun _ => none

theorem Language.empty_mem_parameters_iff (language : Language) {source : Source} {node : Node} :
    "" ∈ language.dialect.parameters source node ↔
      ∃ parameter, language.bareParameter? node = some parameter ∧
        source.textOf parameter = [] := by
  cases language with
  | javascript | typescript => exact Dialect.JavaScript.empty_mem_parametersBy_iff
  | python | java | cpp | rust =>
    -- These show the parameters in a list, if there is one.
    refine iff_of_false ?_ (by rintro ⟨_, ⟨⟩, _⟩)
    simp only [Language.dialect, Dialect.Python.dialect, Dialect.Python.parameters,
      Dialect.Java.dialect, Dialect.Java.parameters, Dialect.Cpp.dialect, Dialect.Cpp.parameters,
      Dialect.Rust.dialect, Dialect.Rust.parameters]
    split
    · exact Dialect.empty_not_mem_showParameters
    · exact List.not_mem_nil

/-! ### Calls -/

/-- A definition holds a call that names nothing: the node of the name is there and covers no
text. -/
def Dialect.CallsNothing (dialect : Dialect) (source : Source) (node : Node) : Prop :=
  ∃ call callee, node.Holds call ∧ dialect.calleeNode? call = some callee ∧
    source.textOf callee = []

theorem Dialect.calledIn_empty_iff {dialect : Dialect} {source : Source} {node : Node} :
    dialect.CalledIn source "" node ↔ dialect.CallsNothing source node := by
  simp only [CalledIn, CallsNothing, callee?, Option.map_eq_some_iff,
    source.stringOf_eq_empty_iff, exists_and_left]

/-- No language knows the empty text as a name that it never records. -/
theorem Language.isRecordable_empty (language : Language) : language.dialect.IsRecordable "" := by
  cases language <;> exact ⟨by decide, by decide⟩

/-! ### Functions -/

theorem ParsedFile.name_ne_empty_of_mem_records {file : ParsedFile} {path : String}
    {entry : Node × FunctionFacts} (member : entry ∈ file.records path) : entry.2.name ≠ "" := by
  obtain ⟨node, -, extracted⟩ := List.mem_filterMap.mp member
  obtain ⟨name, named, rfl⟩ := Option.map_eq_some_iff.mp extracted
  exact (definedName?_eq_some_iff.mp named).2

/-- In every language, whatever the tree, no import is empty and no function has an empty name. A
function shows an empty parameter exactly if it has a single one without parentheses that covers
nothing, and records an empty callee exactly if it holds a call whose name covers nothing. If the
node is placed in the text, it covers nothing exactly if it stops where it starts. -/
theorem empty_texts_from_missing_nodes (language : Language) (source : Source) (tree : Tree)
    (path : String) :
    (∀ text ∈ ((ParsedFile.mk language.dialect source tree).facts path).imports, text ≠ "") ∧
      ((ParsedFile.mk language.dialect source tree).records path).map (·.2) =
        ((ParsedFile.mk language.dialect source tree).facts path).functions ∧
      (∀ entry ∈ (ParsedFile.mk language.dialect source tree).records path,
        entry.2.name ≠ "" ∧
        ("" ∈ entry.2.parameters ↔
          ∃ parameter, language.bareParameter? entry.1 = some parameter ∧
            source.textOf parameter = []) ∧
        ("" ∈ entry.2.calls.names ↔ language.dialect.CallsNothing source entry.1)) ∧
      ∀ node : Node, source.Covers node.tree.label →
        (source.textOf node = [] ↔ node.tree.label.start = node.tree.label.stop) := by
  refine ⟨fun text member => ?_, ParsedFile.map_snd_records _ path, fun entry member => ?_,
    fun node covers => Source.textOf_eq_nil_iff covers⟩
  · exact ((Dialect.takesExcerpts_dialect language).of_mem_imports member).1
  · have named := ParsedFile.name_ne_empty_of_mem_records member
    refine ⟨named, ?_, ?_⟩
    · obtain ⟨-, own, facts⟩ := ParsedFile.exists_of_mem_records member
      rw [facts]
      exact language.empty_mem_parameters_iff
    · rw [ParsedFile.mem_calls_of_mem_records member, Dialect.calledIn_empty_iff]
      exact and_iff_left ⟨named.symm, language.isRecordable_empty⟩

/-- A function with three broken statements: in the second one the name behind the dot is
missing. -/
def brokenStatements : ParsedFile where
  dialect := Dialect.Python.dialect
  source := ⟨"def f():\n    a..b()\n    a.()\n    (()\n".toList⟩
  tree :=
    .node ⟨"module", true, none, 0, 37⟩
      [.node ⟨"function_definition", true, none, 0, 36⟩
        [.node ⟨"def", false, none, 0, 3⟩ [],
          .node ⟨"identifier", true, some "name", 4, 5⟩ [],
          .node ⟨"parameters", true, some "parameters", 5, 7⟩
            [.node ⟨"(", false, none, 5, 6⟩ [], .node ⟨")", false, none, 6, 7⟩ []],
          .node ⟨":", false, none, 7, 8⟩ [],
          .node ⟨"block", true, some "body", 13, 36⟩
            [.node ⟨"expression_statement", true, none, 13, 19⟩
              [.node ⟨"call", true, none, 13, 19⟩
                [.node ⟨"attribute", true, some "function", 13, 17⟩
                  [.node ⟨"identifier", true, some "object", 13, 14⟩ [],
                    .node ⟨".", false, none, 14, 15⟩ [],
                    .node ⟨"ERROR", true, none, 15, 16⟩
                      [.node ⟨".", false, none, 15, 16⟩ []],
                    .node ⟨"identifier", true, some "attribute", 16, 17⟩ []],
                  .node ⟨"argument_list", true, some "arguments", 17, 19⟩
                    [.node ⟨"(", false, none, 17, 18⟩ [], .node ⟨")", false, none, 18, 19⟩ []]]],
              .node ⟨"expression_statement", true, none, 24, 28⟩
                [.node ⟨"call", true, none, 24, 28⟩
                  [.node ⟨"attribute", true, some "function", 24, 26⟩
                    [.node ⟨"identifier", true, some "object", 24, 25⟩ [],
                      .node ⟨".", false, none, 25, 26⟩ [],
                      .node ⟨"identifier", true, some "attribute", 26, 26⟩ []],
                    .node ⟨"argument_list", true, some "arguments", 26, 28⟩
                      [.node ⟨"(", false, none, 26, 27⟩ [], .node ⟨")", false, none, 27, 28⟩ []]]],
              .node ⟨"ERROR", true, none, 33, 36⟩
                [.node ⟨"(", false, none, 33, 34⟩ [],
                  .node ⟨"tuple_pattern", true, none, 34, 36⟩
                    [.node ⟨"(", false, none, 34, 35⟩ [], .node ⟨")", false, none, 35, 36⟩ []]]]]]

/-- The function calls `b` and something without a name, and records both. The node of the missing
name stops where it starts. -/
theorem brokenStatements_record_empty_callee :
    ∃ entry ∈ brokenStatements.records "a.py",
      entry.2.calls.names = ["", "b"] ∧ entry.2.name ≠ "" ∧ "" ∉ entry.2.parameters ∧
        ∃ call callee, entry.1.Holds call ∧
          Dialect.Python.dialect.calleeNode? call = some callee ∧
          brokenStatements.source.Covers callee.tree.label ∧
          callee.tree.label.start = callee.tree.label.stop := by
  have shown : (brokenStatements.records "a.py").map (·.2.calls.names) = [["", "b"]] := by
    decide +kernel
  have placed : ∀ node ∈ brokenStatements.root.descendants,
      brokenStatements.source.Covers node.tree.label := by decide +kernel
  obtain ⟨entry, rest, split, calls, -⟩ := List.map_eq_cons_iff.mp shown
  have member : entry ∈ brokenStatements.records "a.py" := by rw [split]; exact .head _
  obtain ⟨-, -, texts, missing⟩ := empty_texts_from_missing_nodes .python brokenStatements.source
    brokenStatements.tree "a.py"
  obtain ⟨named, parameters, callees⟩ := texts entry member
  have noneEmpty : "" ∉ entry.2.parameters := by
    rw [parameters]
    nofun
  obtain ⟨call, callee, holds, found, nothing⟩ := callees.mp (by rw [calls]; exact .head _)
  have covers := placed callee <| Node.mem_descendants.mpr <|
    (ParsedFile.holds_of_mem_records member).trans
      (holds.trans (Dialect.Python.holds_of_calleeNode? found))
  exact ⟨entry, member, calls, named, noneEmpty, call, callee, holds, found, covers,
    (missing callee covers).mp nothing⟩

end CodeAtlas
