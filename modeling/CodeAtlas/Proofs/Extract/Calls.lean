/-
What the functions of a file call. A function records the names that are called anywhere in its
definition, also in the definitions inside, apart from its own name and from names that are never
recorded. The own name is another one for each of the definitions around a call. So a function
that calls itself does not record that, but the functions around it do, and apart from its own name
a function records all that the functions inside it record.
-/
import CodeAtlas.Proofs.Extract.Laminar
import CodeAtlas.Proofs.Syntax.Subtree
import CodeAtlas.Proofs.Text.ByteOrder

namespace CodeAtlas

open Syntax

namespace Dialect

variable {dialect : Dialect} {source : Source} {name : String}

/-- Something that a node holds calls a name. -/
def CalledIn (dialect : Dialect) (source : Source) (name : String) (node : Node) : Prop :=
  ∃ call, node.Holds call ∧ dialect.callee? source call = some name

/-- A name is recorded where it is called: it is neither built in nor a word that leads control. -/
def IsRecordable (dialect : Dialect) (name : String) : Prop :=
  name ∉ dialect.builtins ∧ name ∉ controlWords

theorem CalledIn.of_holds {outer inner : Node} (holds : outer.Holds inner)
    (called : dialect.CalledIn source name inner) : dialect.CalledIn source name outer := by
  obtain ⟨call, inside, callee⟩ := called
  exact ⟨call, holds.trans inside, callee⟩

theorem mem_callees {node : Node} :
    name ∈ node.descendants.filterMap (dialect.callee? source) ↔
      dialect.CalledIn source name node := by
  rw [List.mem_filterMap]
  exact exists_congr fun call => and_congr_left' Node.mem_descendants

theorem isExcluded_eq_false : dialect.isExcluded name = false ↔ dialect.IsRecordable name := by
  rw [isExcluded, Bool.or_eq_false_iff, List.contains_eq_mem, List.contains_eq_mem,
    decide_eq_false_iff_not, decide_eq_false_iff_not, IsRecordable]

theorem mem_names_calls {own : String} {node : Node} :
    name ∈ (dialect.calls source own node).names ↔
      dialect.CalledIn source name node ∧ name ≠ own ∧ dialect.IsRecordable name := by
  rw [calls, NameSet.mem_names_ofList, List.mem_filter, mem_callees, decide_eq_true_iff,
    Bool.not_eq_true', isExcluded_eq_false]

end Dialect

namespace ParsedFile

variable {file : ParsedFile} {path : String} {entry : Node × FunctionFacts}

theorem holds_of_mem_records (member : entry ∈ file.records path) :
    file.root.Holds entry.1 :=
  Node.mem_descendants.mp (exists_of_mem_records member).1

theorem mem_calls_of_mem_records (member : entry ∈ file.records path) {name : String} :
    name ∈ entry.2.calls.names ↔
      file.dialect.CalledIn file.source name entry.1 ∧ name ≠ entry.2.name ∧
        file.dialect.IsRecordable name := by
  obtain ⟨-, own, facts⟩ := exists_of_mem_records member
  rw [facts]
  exact Dialect.mem_names_calls

end ParsedFile

/-- A function, whatever its language, records a name exactly if something inside its definition
calls the name, the name is not its own, and the name is neither built in nor a word that leads
control. What it records ascends by bytes. So of two functions of which one is defined inside the
other, the outer one records all that the inner one records, apart from its own name; and where
the inner one calls itself, it does not record that, while the outer one does unless the two have
the same name or the name is never recorded. -/
theorem functions_record_what_is_called_inside (file : ParsedFile) (path : String) :
    (file.records path).map (·.2) = file.functions path ∧
      (∀ entry ∈ file.records path,
        (∀ name, name ∈ entry.2.calls.names ↔
          file.dialect.CalledIn file.source name entry.1 ∧ name ≠ entry.2.name ∧
            file.dialect.IsRecordable name) ∧
        (entry.2.calls.names.map fun name => Text.encode name.toList).Pairwise (· < ·)) ∧
      ∀ outer ∈ file.records path, ∀ inner ∈ file.records path, outer.1.Holds inner.1 →
        (∀ name ∈ inner.2.calls.names, name ≠ outer.2.name → name ∈ outer.2.calls.names) ∧
        (file.dialect.CalledIn file.source inner.2.name inner.1 →
          inner.2.name ∉ inner.2.calls.names ∧
            (inner.2.name ∈ outer.2.calls.names ↔
              inner.2.name ≠ outer.2.name ∧ file.dialect.IsRecordable inner.2.name)) := by
  refine ⟨file.map_snd_records path, fun entry member => ?_,
    fun outer outerMember inner innerMember holds => ⟨fun name recorded different => ?_,
      fun callsItself => ⟨fun recorded => ?_, ?_⟩⟩⟩
  · exact ⟨fun name => ParsedFile.mem_calls_of_mem_records member,
      entry.2.calls.names_ascending_bytes⟩
  · obtain ⟨called, -, isRecorded⟩ := (ParsedFile.mem_calls_of_mem_records innerMember).mp recorded
    exact (ParsedFile.mem_calls_of_mem_records outerMember).mpr
      ⟨called.of_holds holds, different, isRecorded⟩
  · exact ((ParsedFile.mem_calls_of_mem_records innerMember).mp recorded).2.1 rfl
  · rw [ParsedFile.mem_calls_of_mem_records outerMember]
    exact and_iff_right (callsItself.of_holds holds)

/-- A module with a function inside another one, where the inner one calls itself with what a third
function gives. -/
def recursiveModule : ParsedFile where
  dialect := Dialect.Python.dialect
  source := ⟨"def f():\n def g(): g(h())".toList⟩
  tree :=
    .node ⟨"module", true, none, 0, 25⟩
      [.node ⟨"function_definition", true, none, 0, 25⟩
        [.node ⟨"def", false, none, 0, 3⟩ [],
          .node ⟨"identifier", true, some "name", 4, 5⟩ [],
          .node ⟨"parameters", true, some "parameters", 5, 7⟩
            [.node ⟨"(", false, none, 5, 6⟩ [], .node ⟨")", false, none, 6, 7⟩ []],
          .node ⟨":", false, none, 7, 8⟩ [],
          .node ⟨"block", true, some "body", 10, 25⟩
            [.node ⟨"function_definition", true, none, 10, 25⟩
              [.node ⟨"def", false, none, 10, 13⟩ [],
                .node ⟨"identifier", true, some "name", 14, 15⟩ [],
                .node ⟨"parameters", true, some "parameters", 15, 17⟩
                  [.node ⟨"(", false, none, 15, 16⟩ [], .node ⟨")", false, none, 16, 17⟩ []],
                .node ⟨":", false, none, 17, 18⟩ [],
                .node ⟨"block", true, some "body", 19, 25⟩
                  [.node ⟨"expression_statement", true, none, 19, 25⟩
                    [.node ⟨"call", true, none, 19, 25⟩
                      [.node ⟨"identifier", true, some "function", 19, 20⟩ [],
                        .node ⟨"argument_list", true, some "arguments", 20, 25⟩
                          [.node ⟨"(", false, none, 20, 21⟩ [],
                            .node ⟨"call", true, none, 21, 24⟩
                              [.node ⟨"identifier", true, some "function", 21, 22⟩ [],
                                .node ⟨"argument_list", true, some "arguments", 22, 24⟩
                                  [.node ⟨"(", false, none, 22, 23⟩ [],
                                    .node ⟨")", false, none, 23, 24⟩ []]],
                            .node ⟨")", false, none, 24, 25⟩ []]]]]]]]]

/-- The inner function calls itself and does not record that; the outer one does. -/
theorem recursiveModule_records_inner_call :
    ∃ outer ∈ recursiveModule.records "a.py", ∃ inner ∈ recursiveModule.records "a.py",
      outer.1.Holds inner.1 ∧
        recursiveModule.dialect.CalledIn recursiveModule.source inner.2.name inner.1 ∧
        (outer.2.name = "f" ∧ outer.2.calls.names = ["g", "h"]) ∧
        (inner.2.name = "g" ∧ inner.2.calls.names = ["h"]) ∧
        inner.2.name ∉ inner.2.calls.names ∧ inner.2.name ∈ outer.2.calls.names := by
  have shown : (recursiveModule.records "a.py").map
      (fun entry => ((entry.1.way, entry.2.name, entry.2.calls.names),
        entry.1.descendants.filterMap
          (recursiveModule.dialect.callee? recursiveModule.source))) =
      [(([0], "f", ["g", "h"]), ["g", "h"]), (([0, 4, 0], "g", ["h"]), ["g", "h"])] := by
    decide +kernel
  obtain ⟨-, -, inside⟩ := functions_record_what_is_called_inside recursiveModule "a.py"
  obtain ⟨outer, rest, split, outerShown, restShown⟩ := List.map_eq_cons_iff.mp shown
  obtain ⟨inner, none, rfl, innerShown, -⟩ := List.map_eq_cons_iff.mp restShown
  simp only [Prod.mk.injEq] at outerShown innerShown
  obtain ⟨⟨outerWay, outerName, outerCalls⟩, -⟩ := outerShown
  obtain ⟨⟨innerWay, innerName, innerCalls⟩, innerCallees⟩ := innerShown
  have outerMember : outer ∈ recursiveModule.records "a.py" := by rw [split]; exact .head _
  have innerMember : inner ∈ recursiveModule.records "a.py" := by rw [split]; exact .tail _ (.head _)
  have holds : outer.1.Holds inner.1 := by
    refine Node.holds_of_prefix_way (ParsedFile.holds_of_mem_records outerMember)
      (ParsedFile.holds_of_mem_records innerMember) ?_
    rw [outerWay, innerWay]
    exact ⟨[4, 0], rfl⟩
  have callsItself :
      recursiveModule.dialect.CalledIn recursiveModule.source inner.2.name inner.1 := by
    rw [← Dialect.mem_callees, innerCallees, innerName]
    exact .head _
  obtain ⟨-, recursion⟩ := inside outer outerMember inner innerMember holds
  obtain ⟨dropped, recorded⟩ := recursion callsItself
  refine ⟨outer, outerMember, inner, innerMember, holds, callsItself, ⟨outerName, outerCalls⟩,
    ⟨innerName, innerCalls⟩, dropped, recorded.mpr ?_⟩
  rw [outerName, innerName]
  exact ⟨by decide, by decide, by decide⟩

end CodeAtlas
