/-
The facts about a repository are read back from their written form, whatever texts, numbers and
names they hold.

Numbers are the only limit: lines, files and functions are counted in 64 bits when they are
read, so `Atlas.CountsFit` asks that no count is larger. Every record is read back by one chain
of its fields, in their order, from the blank record to the written one.
-/
import CodeAtlas.Proofs.Json.RoundTrip
import CodeAtlas.Wire

namespace CodeAtlas

open CodeAtlas.Json

/-! ### Counts of 64 bits -/

/-- The counts of a function fit into 64 bits. -/
structure FunctionFacts.CountsFit (facts : FunctionFacts) : Prop where
  startLine : facts.startLine < UInt64.size
  endLine : facts.endLine < UInt64.size
  lines : facts.lines < UInt64.size

/-- The counts of a file and of its functions fit into 64 bits. -/
structure FileFacts.CountsFit (facts : FileFacts) : Prop where
  functions : ∀ function ∈ facts.functions, function.CountsFit
  totalLines : facts.totalLines < UInt64.size
  totalFunctions : facts.totalFunctions < UInt64.size

/-- All counts fit into 64 bits. -/
structure Atlas.CountsFit (atlas : Atlas) : Prop where
  files : ∀ file ∈ atlas.files, file.CountsFit
  totalFiles : atlas.totalFiles < UInt64.size
  totalFunctions : atlas.totalFunctions < UInt64.size

theorem Language.ofName?_name (language : Language) : ofName? language.name = some language := by
  cases language <;> decide

namespace Wire

/-! ### The parts of a record -/

theorem reads_count {value : Nat} (fits : value < UInt64.size) (depth : Nat) :
    Reads readCount ((Value.natural value).write depth) value :=
  reads_natural fits (Nat.le_refl _) "usize" depth

theorem reads_texts (values : List String) (depth : Nat) :
    Reads readTexts ((texts values).write depth) values :=
  reads_list fun value _ => reads_text value (depth + 1)

theorem reads_language (language : Language) (depth : Nat) :
    Reads readLanguage ((text language.name).write depth) language :=
  reads_choice language.ofName?_name depth

/-! ### Records -/

theorem reads_edge (edge : CallEdge) (depth : Nat) :
    Reads edgeShape.read ((edgeValue edge).write depth) edge := by
  refine Fills.reads (by decide) ?_
  refine .cons ((reads_text edge.source _).field _ _ _) ?_
  refine .cons ((reads_text edge.target _).field _ _ _) ?_
  refine .cons ((reads_text edge.sourceFile _).field _ _ _) ?_
  refine .cons ((reads_text edge.targetFile _).field _ _ _) ?_
  exact .nil edge

theorem reads_function {facts : FunctionFacts} (fits : facts.CountsFit) (depth : Nat) :
    Reads functionShape.read ((functionValue facts).write depth) facts := by
  have complexity := reads_natural facts.complexity.toNat_lt_size (by decide) "u32" (depth + 1)
  refine Fills.reads (by decide) ?_
  refine .cons ((reads_text facts.key _).field _ _ _) ?_
  refine .cons ((reads_text facts.name _).field _ _ _) ?_
  refine .cons ((reads_texts facts.parameters _).field _ _ _) ?_
  refine .cons ((reads_text facts.returnType _).field _ _ _) ?_
  refine .cons (complexity.field _ _ _) ?_
  refine .cons ((reads_count fits.startLine _).field _ _ _) ?_
  refine .cons ((reads_count fits.endLine _).field _ _ _) ?_
  refine .cons ((reads_count fits.lines _).field _ _ _) ?_
  refine .cons ((reads_text facts.code _).field _ _ _) ?_
  refine .cons ((reads_texts facts.calls.names _).field _ _ _) ?_
  -- Words and sets of names are read back through numbers and lists.
  simp only [NameSet.ofList_names, UInt32.ofNat_toNat]
  exact .nil facts

theorem reads_file {facts : FileFacts} (fits : facts.CountsFit) (depth : Nat) :
    Reads fileShape.read ((fileValue facts).write depth) facts := by
  have functions : Reads (readList functionShape.read)
      ((Value.list (facts.functions.map functionValue)).write (depth + 1)) facts.functions :=
    reads_list fun function member => reads_function (fits.functions function member) _
  refine Fills.reads (by decide) ?_
  refine .cons ((reads_text facts.path _).field _ _ _) ?_
  refine .cons ((reads_language facts.language _).field _ _ _) ?_
  refine .cons ((reads_texts facts.imports _).field _ _ _) ?_
  refine .cons (functions.field _ _ _) ?_
  refine .cons ((reads_count fits.totalLines _).field _ _ _) ?_
  refine .cons ((reads_count fits.totalFunctions _).field _ _ _) ?_
  exact .nil facts

theorem reads_atlas {atlas : Atlas} (fits : atlas.CountsFit) (depth : Nat) :
    Reads atlasShape.read ((atlasValue atlas).write depth) atlas := by
  have files : Reads (readList fileShape.read)
      ((Value.list (atlas.files.map fileValue)).write (depth + 1)) atlas.files :=
    reads_list fun file member => reads_file (fits.files file member) _
  have edges : Reads (readList edgeShape.read)
      ((Value.list (atlas.edges.map edgeValue)).write (depth + 1)) atlas.edges :=
    reads_list fun edge _ => reads_edge edge _
  refine Fills.reads (by decide) ?_
  refine .cons (files.field _ _ _) ?_
  refine .cons (edges.field _ _ _) ?_
  refine .cons ((reads_count fits.totalFiles _).field _ _ _) ?_
  refine .cons ((reads_count fits.totalFunctions _).field _ _ _) ?_
  exact .nil atlas

end Wire

/-- Facts are read back from the text they are written as, with or without a new line behind
it. -/
theorem Atlas.parse_toJson (atlas : Atlas) (fits : atlas.CountsFit) :
    Atlas.parse atlas.toJson = .ok atlas ∧ Atlas.parse (atlas.toJson ++ "\n") = .ok atlas := by
  have reads := Wire.reads_atlas fits 0
  constructor
  · have whole := reads.parse areBlank_nil
    rw [List.append_nil] at whole
    rw [Atlas.parse, Atlas.toJson, String.toList_ofList]
    exact whole
  · rw [Atlas.parse, Atlas.toJson, String.toList_append, String.toList_ofList]
    exact reads.parse (areBlank_newLine 0)

/-- A function with the largest numbers, and with texts that need escapes or more than a byte. -/
def extremeFunction : FunctionFacts where
  key := "a \"b\"\\c.py-größe"
  name := "größe"
  parameters := []
  returnType := "\x01\x1f\x7f/😀"
  complexity := 4294967295
  startLine := 18446744073709551615
  endLine := 0
  lines := 10
  code := "def größe():\r\n\treturn \"\\\"\x08\x0c"
  calls := .ofList ["main", "größe", "main"]

def extremeAtlas : Atlas where
  files :=
    [⟨"a \"b\"\\c.py", .python, ["import os", ""], [extremeFunction], 18446744073709551615, 1⟩,
      ⟨"", .javascript, [], [], 0, 0⟩]
  edges := [⟨"", "\n", "a \"b\"\\c.py", ""⟩]
  totalFiles := 2
  totalFunctions := 18446744073709551615

theorem extremeAtlas_countsFit : extremeAtlas.CountsFit := by
  refine ⟨fun file member => ?_, by decide, by decide⟩
  simp only [extremeAtlas, List.mem_cons, List.not_mem_nil, or_false] at member
  rcases member with rfl | rfl
  · refine ⟨fun function member => ?_, by decide, by decide⟩
    rw [List.mem_singleton.mp member]
    exact ⟨by decide, by decide, by decide⟩
  · exact ⟨by simp, by decide, by decide⟩

theorem extremeAtlas_read_back :
    extremeAtlas.CountsFit ∧ Atlas.parse extremeAtlas.toJson = .ok extremeAtlas ∧
      Atlas.parse (extremeAtlas.toJson ++ "\n") = .ok extremeAtlas :=
  ⟨extremeAtlas_countsFit, Atlas.parse_toJson extremeAtlas extremeAtlas_countsFit⟩

end CodeAtlas
