/-
What is recorded of calls and imports stands in the text. The name that a call calls is the text of
a node below the call, however far the way down to it leads through qualified and generic names. So
it is part of the code of every definition around the call, if only the nodes right below a node
lie inside it. An import is the text of a node without what is taken away at its two ends, and
only whole characters are taken away.
-/
import CodeAtlas.Proofs.Dialect.NamePlaces
import CodeAtlas.Proofs.Extract.Calls

namespace CodeAtlas

open Syntax

/-! ### Parts of a text -/

namespace Syntax

theorem takeBytes_prefix_self (count : Nat) (text : List Char) : takeBytes count text <+: text := by
  fun_induction takeBytes count text with
  | case1 => exact List.nil_prefix
  | case2 => exact List.nil_prefix
  | case3 count char text inductionHypothesis =>
    exact List.cons_prefix_cons.mpr ⟨rfl, inductionHypothesis⟩

theorem dropBytes_suffix_self (count : Nat) (text : List Char) : dropBytes count text <:+ text := by
  have whole : dropBytes 0 text = text := by rw [dropBytes]
  have suffix := dropBytes_suffix_dropBytes (Nat.zero_le count) text
  rwa [whole] at suffix

theorem Source.textOf_infix_text (source : Source) (node : Node) :
    source.textOf node <:+: source.text :=
  (dropBytes_suffix_self _ _).isInfix.trans (takeBytes_prefix_self _ _).isInfix

end Syntax

theorem Text.trimBy_infix_self (member : Char → Bool) (text : List Char) :
    Text.trimBy member text <:+: text := by
  have front : text.dropWhile member <:+ text := List.dropWhile_suffix member
  have back : Text.trimBy member text <+: text.dropWhile member := by
    rw [← List.reverse_suffix, Text.trimBy, List.reverse_reverse]
    exact List.dropWhile_suffix member
  exact back.isInfix.trans front.isInfix

/-! ### Languages -/

namespace Dialect

/-- The node that names what a call calls is below the call, and an import is shown as a part of
its text, which is not empty. -/
structure TakesExcerpts (dialect : Dialect) : Prop where
  callee : ∀ {call name : Node}, dialect.calleeNode? call = some name → call.Holds name
  imported : ∀ {text shown : List Char}, dialect.importText? text = some shown →
    shown ≠ [] ∧ shown <:+: text

theorem holds_of_child? {node child : Node} {field : String}
    (found : node.child? field = some child) : node.Holds child :=
  .of_mem_children (Node.mem_children_of_child? found)

theorem nonempty?_eq_some_iff {text shown : List Char} :
    nonempty? text = some shown ↔ shown = text ∧ shown ≠ [] := by
  unfold nonempty?
  cases text with
  | nil => simp
  | cons char text => simp +contextual [eq_comm]

theorem imported_of_trimBy {member : Char → Bool} {text shown : List Char}
    (found : nonempty? (Text.trimBy member text) = some shown) : shown ≠ [] ∧ shown <:+: text := by
  obtain ⟨rfl, nonempty⟩ := nonempty?_eq_some_iff.mp found
  exact ⟨nonempty, Text.trimBy_infix_self member text⟩

section Calls

variable {call name : Node}

theorem Python.holds_of_calleeNode? : Python.calleeNode? call = some name → call.Holds name := by
  fun_cases Python.calleeNode? call with
  | case3 _ function field isName =>
    rintro ⟨⟩
    exact holds_of_child? field
  | case4 _ function field isMember =>
    exact fun found => (holds_of_child? field).trans (holds_of_child? found)
  | _ => nofun

theorem JavaScript.holds_of_calleeNode? :
    JavaScript.calleeNode? call = some name → call.Holds name := by
  fun_cases JavaScript.calleeNode? call with
  | case3 _ function field isName =>
    rintro ⟨⟩
    exact holds_of_child? field
  | case4 _ function field isMember =>
    exact fun found => (holds_of_child? field).trans (holds_of_child? found)
  | _ => nofun

theorem Java.holds_of_calleeNode? : Java.calleeNode? call = some name → call.Holds name := by
  fun_cases Java.calleeNode? call with
  | case1 => exact holds_of_child?
  | case2 => nofun

theorem Cpp.holds_of_calleeNode? : Cpp.calleeNode? call = some name → call.Holds name := by
  fun_cases Cpp.calleeNode? call with
  | case3 _ function field isMember =>
    exact fun found => (holds_of_child? field).trans (holds_of_child? found)
  | case4 _ function field =>
    intro found
    have ends := Cpp.rightmostName?_eq_some_iff.mp found
    exact (holds_of_child? field).trans ends.leadsTo.holds
  | _ => nofun

/-- Type arguments may be given to what has been given some before, so the way down to the name can
be of any length. -/
theorem Rust.holds_of_calledName? {function : Node} :
    Rust.calledName? function = some name → function.Holds name := by
  fun_induction Rust.calledName? function with
  | case1 =>
    rintro ⟨⟩
    exact .refl name
  | case2 | case3 => exact holds_of_child?
  | case4 function _ inner field _ inductionHypothesis =>
    exact fun found => (holds_of_child? field).trans (inductionHypothesis found)
  | case5 | case6 => nofun

theorem Rust.holds_of_calleeNode? : Rust.calleeNode? call = some name → call.Holds name := by
  fun_cases Rust.calleeNode? call with
  | case1 =>
    intro found
    obtain ⟨function, field, called⟩ := Option.bind_eq_some_iff.mp found
    exact (holds_of_child? field).trans (Rust.holds_of_calledName? called)
  | case2 => nofun

end Calls

/-- What stands between the first and the last character is shown. -/
theorem JavaScript.imported_of_importText? {text shown : List Char} :
    JavaScript.importText? text = some shown → shown ≠ [] ∧ shown <:+: text := by
  fun_cases JavaScript.importText? text with
  | case1 first rest =>
    intro found
    obtain ⟨rfl, nonempty⟩ := nonempty?_eq_some_iff.mp found
    have front : rest.dropLast <+: rest := List.dropLast_prefix rest
    exact ⟨nonempty, List.infix_cons front.isInfix⟩
  | _ => nofun

theorem takesExcerpts_dialect (language : Language) : language.dialect.TakesExcerpts := by
  cases language with
  | python => exact ⟨Python.holds_of_calleeNode?, imported_of_trimBy⟩
  | javascript => exact ⟨JavaScript.holds_of_calleeNode?, JavaScript.imported_of_importText?⟩
  | typescript => exact ⟨JavaScript.holds_of_calleeNode?, JavaScript.imported_of_importText?⟩
  | java => exact ⟨Java.holds_of_calleeNode?, imported_of_trimBy⟩
  | cpp => exact ⟨Cpp.holds_of_calleeNode?, imported_of_trimBy⟩
  | rust => exact ⟨Rust.holds_of_calleeNode?, imported_of_trimBy⟩

theorem TakesExcerpts.of_mem_imports {dialect : Dialect} (excerpts : dialect.TakesExcerpts)
    {source : Source} {root : Node} {text : String} (member : text ∈ dialect.imports source root) :
    text ≠ "" ∧ text.toList <:+: source.text := by
  obtain ⟨shown, inShown, rfl⟩ := List.mem_map.mp member
  obtain ⟨node, -, found⟩ := List.mem_filterMap.mp inShown
  obtain ⟨nonempty, part⟩ := excerpts.imported found
  rw [Ne, String.ofList_eq_empty_iff, String.toList_ofList]
  exact ⟨nonempty, part.trans (source.textOf_infix_text node)⟩

end Dialect

/-! ### Files -/

namespace ParsedFile

theorem callee_infix_code (file : ParsedFile) (excerpts : file.dialect.TakesExcerpts)
    (enclose : ∀ node ∈ file.root.descendants, node.tree.EnclosesChildren) {path : String}
    {entry : Node × FunctionFacts} (member : entry ∈ file.records path) {callee : String}
    (called : callee ∈ entry.2.calls.names) : callee.toList <:+: entry.2.code.toList := by
  obtain ⟨⟨call, inside, calls⟩, -⟩ := (mem_calls_of_mem_records member).mp called
  obtain ⟨name, found, rfl⟩ := Option.map_eq_some_iff.mp calls
  obtain ⟨inTree, own, facts⟩ := exists_of_mem_records member
  have below : ∀ other ∈ entry.1.descendants, other.tree.EnclosesChildren := fun other inEntry =>
    enclose other (Node.mem_visit_of_mem_descendants inTree inEntry)
  have within : name.Within entry.1 := Node.within_of_mem_descendants below
    (Node.mem_descendants.mpr (inside.trans (excerpts.callee found)))
  rw [facts]
  show (String.ofList _).toList <:+: (String.ofList _).toList
  rw [String.toList_ofList, String.toList_ofList]
  exact file.source.textOf_infix_textOf within

end ParsedFile

/-- In every language and every tree in which the nodes right below a node lie inside it, what a
function calls is part of its code; and every import is part of the text, and not empty. -/
theorem callees_and_imports_stand_in_text (language : Language) (source : Source) (tree : Tree)
    (enclose : ∀ node ∈ (Node.root tree).descendants, node.tree.EnclosesChildren) (path : String) :
    (∀ function ∈ ((ParsedFile.mk language.dialect source tree).facts path).functions,
        ∀ callee ∈ function.calls.names, callee.toList <:+: function.code.toList) ∧
      ∀ text ∈ ((ParsedFile.mk language.dialect source tree).facts path).imports,
        text ≠ "" ∧ text.toList <:+: source.text := by
  have excerpts := Dialect.takesExcerpts_dialect language
  refine ⟨fun function member callee called => ?_, fun text member => ?_⟩
  · rw [ParsedFile.facts, ← ParsedFile.map_snd_records] at member
    obtain ⟨entry, inRecords, rfl⟩ := List.mem_map.mp member
    exact (ParsedFile.mk language.dialect source tree).callee_infix_code excerpts enclose inRecords
      called
  · exact excerpts.of_mem_imports member

/-- A function in C++ that calls a template of a namespace, below a header whose name is not
ASCII. -/
def includingUnit : ParsedFile where
  dialect := Dialect.Cpp.dialect
  source := ⟨"#include <é.h>\nvoid f() \x7b a::b<c>(); \x7d".toList⟩
  tree :=
    .node ⟨"translation_unit", true, none, 0, 39⟩
      [.node ⟨"preproc_include", true, none, 0, 16⟩
        [.node ⟨"#include", false, none, 0, 8⟩ [],
          .node ⟨"system_lib_string", true, some "path", 9, 15⟩ []],
        .node ⟨"function_definition", true, none, 16, 39⟩
          [.node ⟨"primitive_type", true, some "type", 16, 20⟩ [],
            .node ⟨"function_declarator", true, some "declarator", 21, 24⟩
              [.node ⟨"identifier", true, some "declarator", 21, 22⟩ [],
                .node ⟨"parameter_list", true, some "parameters", 22, 24⟩
                  [.node ⟨"(", false, none, 22, 23⟩ [], .node ⟨")", false, none, 23, 24⟩ []]],
            .node ⟨"compound_statement", true, some "body", 25, 39⟩
              [.node ⟨"\x7b", false, none, 25, 26⟩ [],
                .node ⟨"expression_statement", true, none, 27, 37⟩
                  [.node ⟨"call_expression", true, none, 27, 36⟩
                    [.node ⟨"qualified_identifier", true, some "function", 27, 34⟩
                      [.node ⟨"namespace_identifier", true, some "scope", 27, 28⟩ [],
                        .node ⟨"::", false, none, 28, 30⟩ [],
                        .node ⟨"template_function", true, some "name", 30, 34⟩
                          [.node ⟨"identifier", true, some "name", 30, 31⟩ [],
                            .node ⟨"template_argument_list", true, some "arguments", 31, 34⟩
                              [.node ⟨"<", false, none, 31, 32⟩ [],
                                .node ⟨"type_descriptor", true, none, 32, 33⟩
                                  [.node ⟨"type_identifier", true, some "type", 32, 33⟩ []],
                                .node ⟨">", false, none, 33, 34⟩ []]]],
                      .node ⟨"argument_list", true, some "arguments", 34, 36⟩
                        [.node ⟨"(", false, none, 34, 35⟩ [],
                          .node ⟨")", false, none, 35, 36⟩ []]],
                    .node ⟨";", false, none, 36, 37⟩ []],
                .node ⟨"\x7d", false, none, 38, 39⟩ []]]]

/-- The name of the template is part of the code, and the header without its brackets is part of
the text. -/
theorem includingUnit_excerpts :
    (∀ node ∈ includingUnit.root.descendants, node.tree.EnclosesChildren) ∧
      (includingUnit.facts "a.cpp").functions.map (·.calls.names) = [["b"]] ∧
      (includingUnit.facts "a.cpp").imports = ["é.h"] ∧
      (∀ function ∈ (includingUnit.facts "a.cpp").functions,
        ∀ callee ∈ function.calls.names, callee.toList <:+: function.code.toList) ∧
      ∀ text ∈ (includingUnit.facts "a.cpp").imports,
        text ≠ "" ∧ text.toList <:+: includingUnit.source.text := by
  have enclose : ∀ node ∈ includingUnit.root.descendants, node.tree.EnclosesChildren := by
    decide +kernel
  exact ⟨enclose, by decide +kernel, by decide +kernel,
    callees_and_imports_stand_in_text .cpp includingUnit.source includingUnit.tree enclose "a.cpp"⟩

end CodeAtlas
