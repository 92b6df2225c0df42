/-
How the functions of a file lie to one another. Functions are recorded in the order in which their
definitions are visited, so of two of them the later one is defined inside the earlier one or
behind it. Inside, its code is part of the other's code and its lines are among the other's lines;
behind, it starts no earlier than on the line where the other ends. Definitions without a name are
not recorded, but they only drop out of the order and leave it as it is.
-/
import CodeAtlas.Proofs.Extract.LineSpans
import CodeAtlas.Proofs.Syntax.Nesting

namespace CodeAtlas

open Syntax

/-! ### Parts of a text -/

namespace Syntax

theorem takeBytes_prefix_takeBytes {first second : Nat} (le : first ≤ second) (text : List Char) :
    takeBytes first text <+: takeBytes second text := by
  fun_induction takeBytes first text generalizing second with
  | case1 => exact List.nil_prefix
  | case2 => exact List.nil_prefix
  | case3 first char text inductionHypothesis =>
    obtain ⟨more, rfl⟩ := Nat.exists_eq_add_of_le' (Nat.le_trans (Nat.le_add_left 1 first) le)
    rw [takeBytes, List.cons_prefix_cons]
    exact ⟨rfl, inductionHypothesis (Nat.sub_le_sub_right le char.utf8Size)⟩

theorem dropBytes_suffix_dropBytes {first second : Nat} (le : first ≤ second) (text : List Char) :
    dropBytes second text <:+ dropBytes first text := by
  fun_induction dropBytes second text generalizing first with
  | case1 text =>
    rw [Nat.le_zero.mp le, dropBytes]
  | case2 => exact List.nil_suffix
  | case3 second char text inductionHypothesis =>
    cases first with
    | zero =>
      have whole := inductionHypothesis (Nat.zero_le _)
      rw [dropBytes] at whole ⊢
      exact whole.trans (List.suffix_cons char text)
    | succ first =>
      rw [dropBytes]
      exact inductionHypothesis (Nat.sub_le_sub_right le char.utf8Size)

/-- Of the first part of a text, the first bytes are dropped as they are of the text. -/
theorem dropBytes_prefix_dropBytes {front text : List Char} (isFront : front <+: text)
    (count : Nat) : dropBytes count front <+: dropBytes count text := by
  fun_induction dropBytes count front generalizing text with
  | case1 =>
    rw [dropBytes]
    exact isFront
  | case2 => exact List.nil_prefix
  | case3 count char front inductionHypothesis =>
    obtain ⟨rest, rfl⟩ := isFront
    rw [List.cons_append, dropBytes]
    exact inductionHypothesis (List.prefix_append front rest)

namespace Source

theorem row_le_row (source : Source) {first second : Nat} (le : first ≤ second) :
    source.row first ≤ source.row second :=
  (takeBytes_prefix_takeBytes le source.text).sublist.count_le '\n'

/-- What a node covers is part of what a node around it covers. -/
theorem textOf_infix_textOf (source : Source) {inner outer : Node} (within : inner.Within outer) :
    source.textOf inner <:+: source.textOf outer := by
  have shorter := takeBytes_prefix_takeBytes within.stop source.text
  have front := dropBytes_prefix_dropBytes shorter inner.tree.label.start
  exact front.isInfix.trans (dropBytes_suffix_dropBytes within.start _).isInfix

end Source

end Syntax

/-! ### Functions -/

/-- A function holds another one: the code of the other is part of its code, and the lines of the
other are among its lines. -/
structure FunctionFacts.Encloses (outer inner : FunctionFacts) : Prop where
  code : inner.code.toList <:+: outer.code.toList
  startLine : outer.startLine ≤ inner.startLine
  endLine : inner.endLine ≤ outer.endLine

namespace ParsedFile

/-- In the tree of a file, the nodes right below a node lie inside it, one behind the other. -/
def IsNested (file : ParsedFile) : Prop := ∀ node ∈ file.root.descendants, node.tree.IsNested

/-- The definitions of a file that have names, each with its facts. -/
def records (file : ParsedFile) (path : String) : List (Node × FunctionFacts) :=
  file.definitions.filterMap fun node =>
    (file.definedName? node).map fun name => (node, file.functionFacts path name node)

theorem map_snd_records (file : ParsedFile) (path : String) :
    (file.records path).map (·.2) = file.functions path := by
  rw [records, functions, List.map_filterMap]
  simp only [Option.map_map]
  rfl

/-- What is recorded are the facts about a node of the tree, under some name. -/
theorem exists_of_mem_records {file : ParsedFile} {path : String} {entry : Node × FunctionFacts}
    (member : entry ∈ file.records path) :
    entry.1 ∈ file.root.descendants ∧ ∃ name, entry.2 = file.functionFacts path name entry.1 := by
  obtain ⟨node, isDefinition, extracted⟩ := List.mem_filterMap.mp member
  obtain ⟨name, -, rfl⟩ := Option.map_eq_some_iff.mp extracted
  exact ⟨(List.mem_filter.mp isDefinition).1, name, rfl⟩

theorem encloses_functionFacts (file : ParsedFile) (path first second : String)
    {inner outer : Node} (within : inner.Within outer) :
    (file.functionFacts path first outer).Encloses (file.functionFacts path second inner) where
  code := by
    show (String.ofList _).toList <:+: (String.ofList _).toList
    rw [String.toList_ofList, String.toList_ofList]
    exact file.source.textOf_infix_textOf within
  startLine := Nat.succ_le_succ (file.source.row_le_row within.start)
  endLine := Nat.succ_le_succ (file.source.row_le_row within.stop)

theorem endLine_le_startLine (file : ParsedFile) (path first second : String)
    {earlier later : Node} (follows : later.Follows earlier) :
    (file.functionFacts path first earlier).endLine ≤
      (file.functionFacts path second later).startLine :=
  Nat.succ_le_succ (file.source.row_le_row follows)

theorem startLine_le_endLine (file : ParsedFile) (path name : String) {node : Node}
    (nested : node.tree.IsNested) :
    (file.functionFacts path name node).startLine ≤ (file.functionFacts path name node).endLine :=
  Nat.succ_le_succ (file.source.row_le_row nested.ordered)

/-- How a function lies to an earlier one, each with its definition. Its definition is below the
other and inside it, and the other function encloses it; or its definition is not below the other
and lies behind it, and so do its lines, of which the first may be the other's last. -/
inductive InsideOrBehind (first second : Node × FunctionFacts) : Prop
  | inside (below : second.1 ∈ first.1.descendants) (within : second.1.Within first.1)
      (encloses : first.2.Encloses second.2)
  | behind (notBelow : second.1 ∉ first.1.descendants) (follows : second.1.Follows first.1)
      (lines : first.2.endLine ≤ second.2.startLine)

theorem pairwise_insideOrBehind_records (file : ParsedFile) (nested : file.IsNested)
    (path : String) : (file.records path).Pairwise InsideOrBehind := by
  have visited : file.definitions.Pairwise fun first second =>
      (second ∈ first.descendants → second.Within first) ∧
        (second ∉ first.descendants → second.Follows first) :=
    (Node.pairwise_descendants_within_or_follows nested).filter _
  refine visited.filterMap _ ?_
  rintro first second ⟨inside, behind⟩ earlier extracted later alsoExtracted
  obtain ⟨firstName, -, rfl⟩ := Option.map_eq_some_iff.mp extracted
  obtain ⟨secondName, -, rfl⟩ := Option.map_eq_some_iff.mp alsoExtracted
  by_cases below : second ∈ first.descendants
  · exact .inside below (inside below) (file.encloses_functionFacts path _ _ (inside below))
  · exact .behind below (behind below) (file.endLine_le_startLine path _ _ (behind below))

theorem startLine_le_endLine_of_mem {file : ParsedFile} (nested : file.IsNested) {path : String}
    {entry : Node × FunctionFacts} (member : entry ∈ file.records path) :
    entry.2.startLine ≤ entry.2.endLine := by
  obtain ⟨inTree, name, facts⟩ := exists_of_mem_records member
  rw [facts]
  exact file.startLine_le_endLine path name (nested entry.1 inTree)

end ParsedFile

/-- Of two functions of a file, whatever its language, the later one is defined inside the earlier
one, and then its code is part of the other's code and its lines are among the other's lines; or
it is defined behind the earlier one, and then it starts no earlier than on the line where the
other ends. So the functions stand in the order of the lines on which they start. -/
theorem functions_laminar (file : ParsedFile) (nested : file.IsNested) (path : String) :
    (file.records path).map (·.2) = file.functions path ∧
      (file.records path).Pairwise ParsedFile.InsideOrBehind ∧
      ((file.functions path).map (·.startLine)).Pairwise (· ≤ ·) := by
  have laminar := file.pairwise_insideOrBehind_records nested path
  refine ⟨file.map_snd_records path, laminar, ?_⟩
  rw [← file.map_snd_records path, List.map_map, List.pairwise_map]
  refine laminar.imp_of_mem ?_
  intro first second member _ lies
  cases lies with
  | inside _ _ encloses => exact encloses.startLine
  | behind _ _ lines =>
    exact Nat.le_trans (ParsedFile.startLine_le_endLine_of_mem nested member) lines

/-- A module with a function that defines another one, and a third function behind the two. -/
def layeredModule : ParsedFile where
  dialect := Dialect.Python.dialect
  source := ⟨"def f():\n def g(): 0\ndef h(): 0".toList⟩
  tree :=
    .node ⟨"module", true, none, 0, 31⟩
      [.node ⟨"function_definition", true, none, 0, 20⟩
        [.node ⟨"def", false, none, 0, 3⟩ [],
          .node ⟨"identifier", true, some "name", 4, 5⟩ [],
          .node ⟨"parameters", true, some "parameters", 5, 7⟩
            [.node ⟨"(", false, none, 5, 6⟩ [], .node ⟨")", false, none, 6, 7⟩ []],
          .node ⟨":", false, none, 7, 8⟩ [],
          .node ⟨"block", true, some "body", 10, 20⟩
            [.node ⟨"function_definition", true, none, 10, 20⟩
              [.node ⟨"def", false, none, 10, 13⟩ [],
                .node ⟨"identifier", true, some "name", 14, 15⟩ [],
                .node ⟨"parameters", true, some "parameters", 15, 17⟩
                  [.node ⟨"(", false, none, 15, 16⟩ [], .node ⟨")", false, none, 16, 17⟩ []],
                .node ⟨":", false, none, 17, 18⟩ [],
                .node ⟨"block", true, some "body", 19, 20⟩
                  [.node ⟨"expression_statement", true, none, 19, 20⟩
                    [.node ⟨"integer", true, none, 19, 20⟩ []]]]]],
        .node ⟨"function_definition", true, none, 21, 31⟩
          [.node ⟨"def", false, none, 21, 24⟩ [],
            .node ⟨"identifier", true, some "name", 25, 26⟩ [],
            .node ⟨"parameters", true, some "parameters", 26, 28⟩
              [.node ⟨"(", false, none, 26, 27⟩ [], .node ⟨")", false, none, 27, 28⟩ []],
            .node ⟨":", false, none, 28, 29⟩ [],
            .node ⟨"block", true, some "body", 30, 31⟩
              [.node ⟨"expression_statement", true, none, 30, 31⟩
                [.node ⟨"integer", true, none, 30, 31⟩ []]]]]

/-- The module is nested, and its three functions start on its three lines. -/
theorem layeredModule_laminar :
    layeredModule.IsNested ∧
      (layeredModule.functions "a.py").map
          (fun function => (function.name, function.startLine, function.endLine)) =
        [("f", 1, 2), ("g", 2, 2), ("h", 3, 3)] ∧
      (layeredModule.records "a.py").Pairwise ParsedFile.InsideOrBehind ∧
      ((layeredModule.functions "a.py").map (·.startLine)).Pairwise (· ≤ ·) := by
  have nested : ∀ node ∈ layeredModule.root.descendants, node.tree.IsNested := by decide +kernel
  obtain ⟨-, laminar, ordered⟩ := functions_laminar layeredModule nested "a.py"
  exact ⟨nested, by decide +kernel, laminar, ordered⟩

end CodeAtlas
