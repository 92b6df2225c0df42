/-
The number of lines in the facts about a file. It is counted in the text that is read from the
file, and bytes that are not UTF-8 are dropped from the text, but no line is lost, added or joined
with another one on the way. A line feed is read wherever it stands in a file, even behind an
encoding that breaks off, and is read from nothing else; so the lines of the text are what is read
from the lines of the file.
-/
import CodeAtlas.Proofs.Extract.LineSpans
import CodeAtlas.Proofs.Extract.Lookup
import CodeAtlas.Proofs.Text.Decoding

namespace CodeAtlas

namespace Text

theorem newline_not_mem_decode {bytes : List UInt8} (absent : 0x0A ∉ bytes) :
    '\n' ∉ decode bytes := by
  intro member
  have encoded : 0x0A ∈ encode (decode bytes) := List.mem_flatMap.mpr ⟨'\n', member, by decide⟩
  exact absent ((encode_decode_sublist bytes).mem encoded)

/-- The lines of what is read from some bytes are what is read from each line of the bytes. -/
theorem lines_decode (bytes : List UInt8) :
    lines (decode bytes) = (bytes.splitOn 0x0A).map decode := by
  -- Any line feed will do to cut the bytes in two, since both sides are read on their own.
  by_cases newline : 0x0A ∈ bytes
  · obtain ⟨front, back, split⟩ := List.append_of_mem newline
    rw [split, decode_append_ascii front (by decide) back, List.splitOn_append_cons_self,
      List.map_append, ← lines_decode front, ← lines_decode back]
    exact lines_append_newline _ _
  · rw [List.splitOn_eq_singleton newline, lines,
      List.splitOn_eq_singleton (newline_not_mem_decode newline)]
    rfl
termination_by bytes.length
decreasing_by
  all_goals
    rw [split, List.length_append, List.length_cons]
    omega

end Text

/-- Facts are about a file that was read: the path leads to it, and its text was analysed. -/
theorem Repository.exists_parsed_of_fileFacts? {repository : Repository} {system : FileSystem}
    {path : Path} {facts : FileFacts} (recorded : repository.fileFacts? system path = some facts) :
    ∃ (content : Content) (parsed : ParsedFile),
      system.file? (repository.root.join path) = some content ∧
      parsed.source.text = Text.decode content.bytes ∧
      facts = parsed.facts (repository.display (repository.root.join path)) := by
  obtain ⟨parsed, loaded, rfl⟩ := Option.map_eq_some_iff.mp recorded
  obtain ⟨language, content, tree, -, found, -, -, rfl⟩ := ParsedFile.load?_eq_some_iff.mp loaded
  exact ⟨content, _, found, rfl, rfl⟩

/-- The facts about a file give one line more than there are line feeds among the bytes of the
file, whether these are UTF-8 or not. These are the lines of the text that is read, and each of
them is what is read from one line of the file. -/
theorem totalLines_counts_newline_bytes (repository : Repository) (system : FileSystem)
    (path : Path) (facts : FileFacts)
    (recorded : repository.fileFacts? system path = some facts) :
    ∃ content, system.file? (repository.root.join path) = some content ∧
      facts.totalLines = 1 + content.bytes.count 0x0A ∧
      facts.totalLines = (Text.lines (Text.decode content.bytes)).length ∧
      Text.lines (Text.decode content.bytes) = (content.bytes.splitOn 0x0A).map Text.decode := by
  obtain ⟨content, parsed, found, text, rfl⟩ := Repository.exists_parsed_of_fileFacts? recorded
  have counted : parsed.source.lineCount = (Text.lines (Text.decode content.bytes)).length := by
    rw [Text.length_lines, ← text]
    rfl
  refine ⟨content, found, ?_, counted, Text.lines_decode content.bytes⟩
  calc parsed.source.lineCount
    _ = ((content.bytes.splitOn 0x0A).map Text.decode).length := by
      rw [counted, Text.lines_decode]
    _ = 1 + content.bytes.count 0x0A := by
      rw [List.length_map, Text.length_splitOn, Nat.add_comm]

/-- A module of two lines, of which the first one ends in an encoding that breaks off. -/
def brokenModule : Content :=
  pythonContent [0x78, 0xE2, 0x82, 0x0A, 0x79] <|
    .node ⟨"module", true, none, 0, 3⟩
      [.node ⟨"expression_statement", true, none, 0, 1⟩ [.node ⟨"identifier", true, none, 0, 1⟩ []],
        .node ⟨"expression_statement", true, none, 2, 3⟩
          [.node ⟨"identifier", true, none, 2, 3⟩ []]]

/-- The module in a directory of its own. -/
def brokenSystem : FileSystem := (∅ : FileSystem).insert [] "a.py" (.file brokenModule)

/-- The line feed is not taken for a part of the encoding. -/
theorem brokenSystem_counts_two_lines :
    ∃ facts, (Repository.mk "/" {}).fileFacts? brokenSystem "/a.py" = some facts ∧
      facts.totalLines = 2 := by
  have stands : brokenSystem.entry? ([] ++ [("a.py" : Name)]) = some (.file brokenModule) := rfl
  have found : brokenSystem.file? "/a.py" = some brokenModule :=
    FileSystem.file?_of_top (by decide) (by decide) stands
  have loaded := ParsedFile.load?_eq_some_iff.mpr
    ⟨.python, brokenModule, _, Path.ofPath?_eq_python (by decide), found, by decide +kernel, rfl,
      rfl⟩
  have recorded : ∃ facts, (Repository.mk "/" {}).fileFacts? brokenSystem "/a.py" = some facts := by
    rw [Repository.fileFacts?_of_isAbsolute _ _ rfl, loaded]
    exact ⟨_, rfl⟩
  obtain ⟨facts, recorded⟩ := recorded
  obtain ⟨content, same, counted, -⟩ := totalLines_counts_newline_bytes _ _ _ facts recorded
  have content_eq : content = brokenModule := Option.some.inj (same.symm.trans found)
  refine ⟨facts, recorded, ?_⟩
  rw [counted, content_eq]
  decide

end CodeAtlas
