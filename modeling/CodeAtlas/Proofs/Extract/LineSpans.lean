/-
The lines of a function. A definition is seen in three ways: as a piece of the text between two
offsets, by the numbers of its first and its last line, and as some of the lines that the text
splits into. This file shows that they agree. A definition need not start or end at the end of a
line, so its lines joined again are its code with what else stands on its first line before it
and on its last line behind it.

All three come from one way of cutting the text, into what stands before the definition, the
definition and what stands behind it. Lines are counted by the line feeds in these parts.
-/
import Mathlib.Data.List.Induction
import Mathlib.Data.List.Infix
import CodeAtlas.Extract
import CodeAtlas.Proofs.Text.ByteOrder

namespace CodeAtlas

open Syntax

/-! ### Lines -/

namespace Text

/-- The lines of a text: what stands between its line feeds. -/
def lines (text : List Char) : List (List Char) := text.splitOn '\n'

/-- Some lines with line feeds between them. -/
def joinLines (lines : List (List Char)) : List Char := ['\n'].intercalate lines

theorem joinLines_lines (text : List Char) : joinLines (lines text) = text :=
  List.intercalate_splitOn '\n'

/-- A line feed divides the lines before it from the lines behind it. -/
theorem lines_append_newline (front back : List Char) :
    lines (front ++ '\n' :: back) = lines front ++ lines back :=
  List.splitOnP_append_cons front back (beq_self_eq_true '\n')

/-- A list is split into one part more than it has separators. -/
theorem length_splitOn {Item : Type} [BEq Item] [LawfulBEq Item] (separator : Item)
    (items : List Item) : (items.splitOn separator).length = items.count separator + 1 := by
  induction items with
  | nil => rfl
  | cons item rest inductionHypothesis =>
    rw [List.splitOn] at inductionHypothesis ⊢
    rw [List.splitOnP_cons_eq_if_modifyHead, List.count_cons]
    split
    · rw [List.length_cons, inductionHypothesis]
    · rw [List.length_modifyHead, inductionHypothesis]

theorem length_lines (text : List Char) : (lines text).length = text.count '\n' + 1 :=
  length_splitOn '\n' text

/-- Without the lines that end in it, a front leaves the end of its last line before the rest. -/
theorem exists_drop_lines (front : List Char) :
    ∃ before, '\n' ∉ before ∧
      ∀ rest, (lines (front ++ rest)).drop (front.count '\n') = lines (before ++ rest) := by
  induction front using List.reverseRecOn with
  | nil => exact ⟨[], List.not_mem_nil, fun rest => rfl⟩
  | append_singleton front char inductionHypothesis =>
    by_cases newline : char = '\n'
    · subst newline
      refine ⟨[], List.not_mem_nil, fun rest => ?_⟩
      rw [List.append_assoc, List.singleton_append, lines_append_newline]
      refine List.drop_left' ?_
      rw [length_lines, List.count_append]
      rfl
    · obtain ⟨before, noNewline, dropped⟩ := inductionHypothesis
      refine ⟨before ++ [char], ?_, fun rest => ?_⟩
      · simpa [noNewline] using Ne.symm newline
      · rw [List.count_append, List.count_singleton, if_neg (by simpa using newline),
          List.append_assoc, List.append_assoc]
        exact dropped _

/-- The lines up to the end of a front hold of the rest only the start of its first line. -/
theorem exists_take_lines (back : List Char) :
    ∃ behind, '\n' ∉ behind ∧
      ∀ front, (lines (front ++ back)).take (front.count '\n' + 1) = lines (front ++ behind) := by
  induction back with
  | nil =>
    refine ⟨[], List.not_mem_nil, fun front => List.take_of_length_le ?_⟩
    rw [List.append_nil, length_lines]
  | cons char back inductionHypothesis =>
    by_cases newline : char = '\n'
    · subst newline
      refine ⟨[], List.not_mem_nil, fun front => ?_⟩
      rw [lines_append_newline, List.append_nil]
      exact List.take_left' (length_lines front)
    · obtain ⟨behind, noNewline, taken⟩ := inductionHypothesis
      refine ⟨char :: behind, ?_, fun front => ?_⟩
      · simpa [noNewline] using Ne.symm newline
      · have moved := taken (front ++ [char])
        rw [List.count_append, List.count_singleton, if_neg (by simpa using newline),
          List.append_assoc, List.append_assoc] at moved
        exact moved

/-- The lines that a part of a text is on are the part, with the end of a line before it and the
start of one behind it. -/
theorem exists_joinLines_eq (front part back : List Char) :
    ∃ before behind, '\n' ∉ before ∧ '\n' ∉ behind ∧
      joinLines (((lines (front ++ part ++ back)).drop (front.count '\n')).take
        (part.count '\n' + 1)) = before ++ part ++ behind := by
  obtain ⟨before, noneBefore, dropped⟩ := exists_drop_lines front
  obtain ⟨behind, noneBehind, taken⟩ := exists_take_lines back
  refine ⟨before, behind, noneBefore, noneBehind, ?_⟩
  have count : (before ++ part).count '\n' = part.count '\n' := by
    rw [List.count_append, List.count_eq_zero.mpr noneBefore, Nat.zero_add]
  rw [List.append_assoc, dropped, ← List.append_assoc, ← count, taken, joinLines_lines]

end Text

/-! ### Offsets -/

namespace Syntax

theorem length_encode_cons (char : Char) (text : List Char) :
    (Text.encode (char :: text)).length = char.utf8Size + (Text.encode text).length := by
  rw [Text.encode_cons, List.length_append, Text.encodeChar, String.length_utf8EncodeChar]

theorem takeBytes_cons (char : Char) (count : Nat) (text : List Char) :
    takeBytes (char.utf8Size + count) (char :: text) = char :: takeBytes count text := by
  obtain ⟨more, positive⟩ :=
    Nat.exists_eq_add_one_of_ne_zero (Nat.ne_of_gt (Nat.add_pos_left char.utf8Size_pos count))
  rw [positive, takeBytes, ← positive, Nat.add_sub_cancel_left]

theorem dropBytes_cons (char : Char) (count : Nat) (text : List Char) :
    dropBytes (char.utf8Size + count) (char :: text) = dropBytes count text := by
  obtain ⟨more, positive⟩ :=
    Nat.exists_eq_add_one_of_ne_zero (Nat.ne_of_gt (Nat.add_pos_left char.utf8Size_pos count))
  rw [positive, dropBytes, ← positive, Nat.add_sub_cancel_left]

theorem takeBytes_append (front back : List Char) :
    takeBytes (Text.encode front).length (front ++ back) = front := by
  induction front with
  | nil =>
    show takeBytes 0 back = []
    rw [takeBytes]
  | cons char front inductionHypothesis =>
    rw [length_encode_cons, List.cons_append, takeBytes_cons, inductionHypothesis]

theorem dropBytes_append (front back : List Char) :
    dropBytes (Text.encode front).length (front ++ back) = back := by
  induction front with
  | nil =>
    show dropBytes 0 back = back
    rw [dropBytes]
  | cons char front inductionHypothesis =>
    rw [length_encode_cons, List.cons_append, dropBytes_cons, inductionHypothesis]

namespace Source

/-- The offsets between the characters of a text, its two ends among them. -/
def boundaries (source : Source) : List Nat :=
  source.text.inits.map fun front => (Text.encode front).length

/-- A label covers a piece of a text: it starts and stops between characters, and does not stop
before it starts. -/
structure Covers (source : Source) (label : Label) : Prop where
  ordered : label.start ≤ label.stop
  start_mem : label.start ∈ source.boundaries
  stop_mem : label.stop ∈ source.boundaries

instance (source : Source) (label : Label) : Decidable (source.Covers label) :=
  decidable_of_iff
    (label.start ≤ label.stop ∧ label.start ∈ source.boundaries ∧ label.stop ∈ source.boundaries)
    ⟨fun ⟨ordered, start_mem, stop_mem⟩ => ⟨ordered, start_mem, stop_mem⟩,
      fun ⟨ordered, start_mem, stop_mem⟩ => ⟨ordered, start_mem, stop_mem⟩⟩

/-- The text before a label, the text that it covers and the text behind it. -/
structure Cut (source : Source) (label : Label) (front part back : List Char) : Prop where
  whole : source.text = front ++ part ++ back
  start_eq : label.start = (Text.encode front).length
  stop_eq : label.stop = (Text.encode (front ++ part)).length

theorem Covers.exists_cut {source : Source} {label : Label} (covers : source.Covers label) :
    ∃ front part back, source.Cut label front part back := by
  obtain ⟨ordered, start_mem, stop_mem⟩ := covers
  obtain ⟨front, inFronts, start⟩ := List.mem_map.mp start_mem
  obtain ⟨longer, inLonger, stop⟩ := List.mem_map.mp stop_mem
  rw [List.mem_inits] at inFronts inLonger
  rcases List.prefix_or_prefix_of_prefix inFronts inLonger with ⟨part, rfl⟩ | ⟨part, rfl⟩
  · obtain ⟨back, whole⟩ := inLonger
    exact ⟨front, part, back, whole.symm, start.symm, stop.symm⟩
  · -- The label stops no later than it starts, so it covers nothing.
    obtain ⟨back, whole⟩ := inFronts
    have empty : label.stop = label.start := by
      refine Nat.le_antisymm ?_ ordered
      rw [← start, ← stop, Text.encode, Text.encode, List.flatMap_append, List.length_append]
      exact Nat.le_add_right _ _
    refine ⟨longer ++ part, [], back, ?_, start.symm, ?_⟩
    · rw [List.append_nil, whole]
    · rw [List.append_nil, empty, start]

section Cut

variable {source : Source} {label : Label} {front part back : List Char}
  (cut : source.Cut label front part back)
include cut

theorem Cut.slice_eq : source.slice label.start label.stop = part := by
  rw [slice, cut.whole, cut.start_eq, cut.stop_eq, takeBytes_append, dropBytes_append]

theorem Cut.row_start : source.row label.start = front.count '\n' := by
  rw [row, cut.whole, cut.start_eq, List.append_assoc, takeBytes_append]

theorem Cut.row_stop : source.row label.stop = front.count '\n' + part.count '\n' := by
  rw [row, cut.whole, cut.stop_eq, takeBytes_append, List.count_append]

end Cut

end Source

end Syntax

/-! ### Functions -/

/-- A function spans lines of a text. Its lines are numbered from one, in order, and are there;
they are counted by the line feeds in its code; and they are its code, with what else is on its
first line before it and on its last line behind it. -/
structure FunctionFacts.SpansLines (function : FunctionFacts) (text : List Char) : Prop where
  positive : 1 ≤ function.startLine
  ordered : function.startLine ≤ function.endLine
  present : function.endLine ≤ (Text.lines text).length
  counted : function.lines = function.endLine - function.startLine + 1
  newlines : function.lines = 1 + function.code.toList.count '\n'
  joined : ∃ before behind, '\n' ∉ before ∧ '\n' ∉ behind ∧
    Text.joinLines (((Text.lines text).take function.endLine).drop (function.startLine - 1)) =
      before ++ function.code.toList ++ behind

namespace ParsedFile

/-- All nodes of a file cover pieces of its text. -/
def IsPlaced (file : ParsedFile) : Prop :=
  ∀ node ∈ file.root.descendants, file.source.Covers node.tree.label

theorem spansLines_functionFacts (file : ParsedFile) (path name : String) {node : Node}
    (covers : file.source.Covers node.tree.label) :
    (file.functionFacts path name node).SpansLines file.source.text := by
  obtain ⟨front, part, back, cut⟩ := covers.exists_cut
  have start : (file.functionFacts path name node).startLine = front.count '\n' + 1 :=
    congrArg (· + 1) cut.row_start
  have stop : (file.functionFacts path name node).endLine =
      front.count '\n' + part.count '\n' + 1 := congrArg (· + 1) cut.row_stop
  have code : (file.functionFacts path name node).code.toList = part := by
    show (String.ofList (file.source.textOf node)).toList = part
    rw [String.toList_ofList, Source.textOf, cut.slice_eq]
  have lines : (file.functionFacts path name node).lines =
      (file.functionFacts path name node).endLine -
        (file.functionFacts path name node).startLine + 1 := rfl
  refine ⟨?_, ?_, ?_, lines, ?_, ?_⟩
  · rw [start]
    exact Nat.le_add_left 1 _
  · rw [start, stop]
    omega
  · rw [stop, Text.length_lines, cut.whole, List.count_append, List.count_append]
    omega
  · rw [lines, start, stop, code]
    omega
  · obtain ⟨before, behind, noneBefore, noneBehind, joined⟩ :=
      Text.exists_joinLines_eq front part back
    refine ⟨before, behind, noneBefore, noneBehind, ?_⟩
    rw [code, ← joined, ← cut.whole, start, stop, List.drop_take]
    congr 2
    omega

end ParsedFile

/-- The functions of a file, whatever its language, span lines of its text, if all nodes of its
tree cover pieces of the text; and the file has as many lines as its text splits into. -/
theorem functions_span_lines (file : ParsedFile) (placed : file.IsPlaced) (path : String) :
    (∀ function ∈ file.functions path, function.SpansLines file.source.text) ∧
      (file.facts path).totalLines = (Text.lines file.source.text).length := by
  constructor
  · intro function member
    obtain ⟨node, isDefinition, extracted⟩ := List.mem_filterMap.mp member
    obtain ⟨name, -, rfl⟩ := Option.map_eq_some_iff.mp extracted
    exact file.spansLines_functionFacts path name (placed node (List.mem_filter.mp isDefinition).1)
  · exact (Text.length_lines file.source.text).symm

/-- A function of two lines that is indented below a condition and calls a name that is not
ASCII. -/
def indentedFunction : ParsedFile where
  dialect := Dialect.Python.dialect
  source := ⟨"if x:\n  def f():\n    é()\n".toList⟩
  tree :=
    .node ⟨"module", true, none, 0, 26⟩
      [.node ⟨"if_statement", true, none, 0, 25⟩
        [.node ⟨"if", false, none, 0, 2⟩ [],
          .node ⟨"identifier", true, some "condition", 3, 4⟩ [],
          .node ⟨":", false, none, 4, 5⟩ [],
          .node ⟨"block", true, some "consequence", 8, 25⟩
            [.node ⟨"function_definition", true, none, 8, 25⟩
              [.node ⟨"def", false, none, 8, 11⟩ [],
                .node ⟨"identifier", true, some "name", 12, 13⟩ [],
                .node ⟨"parameters", true, some "parameters", 13, 15⟩
                  [.node ⟨"(", false, none, 13, 14⟩ [], .node ⟨")", false, none, 14, 15⟩ []],
                .node ⟨":", false, none, 15, 16⟩ [],
                .node ⟨"block", true, some "body", 21, 25⟩
                  [.node ⟨"expression_statement", true, none, 21, 25⟩
                    [.node ⟨"call", true, none, 21, 25⟩
                      [.node ⟨"identifier", true, some "function", 21, 23⟩ [],
                        .node ⟨"argument_list", true, some "arguments", 23, 25⟩
                          [.node ⟨"(", false, none, 23, 24⟩ [],
                            .node ⟨")", false, none, 24, 25⟩ []]]]]]]]]

/-- The function is on the second and the third line, behind the blanks of the second. -/
theorem indentedFunction_spans_lines :
    indentedFunction.IsPlaced ∧
      ∃ function ∈ indentedFunction.functions "a.py", function.startLine = 2 ∧
        function.endLine = 3 ∧ function.code = "def f():\n    é()" ∧
        function.SpansLines indentedFunction.source.text := by
  have placed : ∀ node ∈ indentedFunction.root.descendants,
      indentedFunction.source.Covers node.tree.label := by decide +kernel
  have found : ∃ function ∈ indentedFunction.functions "a.py", function.startLine = 2 ∧
      function.endLine = 3 ∧ function.code = "def f():\n    é()" := by decide +kernel
  obtain ⟨function, member, start, stop, code⟩ := found
  exact ⟨placed, function, member, start, stop, code,
    (functions_span_lines indentedFunction placed "a.py").1 function member⟩

end CodeAtlas
