/-
The facts about a repository are read from every layout of their JSON text, and from no text in
which a record lacks a key or has one twice.

The layouts of a record are given by its places: for each key, the texts that may stand behind
it. A set of names is the only part of the facts that has many lists, since neither order nor
repetition counts in it. Texts with a fault are given in the same way, by the places in which a
fault may stand; it may be as deep as records are.
-/
import CodeAtlas.Proofs.Json.Refusals
import CodeAtlas.Proofs.Lexicographic
import CodeAtlas.Proofs.Wire

namespace CodeAtlas

open CodeAtlas.Json

namespace Wire

/-! ### Layouts of the records -/

/-- The text of a number is its decimal digits. -/
def WritesCount (value : Nat) (written : Input) : Prop := written = Nat.toDigits 10 value

/-- The ways to write a set of names: as a list that has each of them, in any order and any number
of times. -/
def WritesNames (set : NameSet) (written : Input) : Prop :=
  ∃ listed : List String, (∀ name, name ∈ listed ↔ name ∈ set.names) ∧
    WritesList WritesText listed written

/-- The places of an edge. -/
def edgeSlots (edge : CallEdge) : List Slot :=
  [⟨"source", WritesText edge.source⟩, ⟨"target", WritesText edge.target⟩,
    ⟨"sourceFile", WritesText edge.sourceFile⟩, ⟨"targetFile", WritesText edge.targetFile⟩]

/-- The places of a function. -/
def functionSlots (facts : FunctionFacts) : List Slot :=
  [⟨"functionName", WritesText facts.key⟩, ⟨"name", WritesText facts.name⟩,
    ⟨"parameters", WritesList WritesText facts.parameters⟩,
    ⟨"returnType", WritesText facts.returnType⟩,
    ⟨"complexity", WritesCount facts.complexity.toNat⟩,
    ⟨"startLine", WritesCount facts.startLine⟩, ⟨"endLine", WritesCount facts.endLine⟩,
    ⟨"lines", WritesCount facts.lines⟩, ⟨"code", WritesText facts.code⟩,
    ⟨"calls", WritesNames facts.calls⟩]

/-- The places of a file. -/
def fileSlots (facts : FileFacts) : List Slot :=
  [⟨"filePath", WritesText facts.path⟩, ⟨"language", WritesText facts.language.name⟩,
    ⟨"imports", WritesList WritesText facts.imports⟩,
    ⟨"listOfFunctions",
      WritesList (fun function => WritesRecord (functionSlots function)) facts.functions⟩,
    ⟨"totalLines", WritesCount facts.totalLines⟩,
    ⟨"totalFunctions", WritesCount facts.totalFunctions⟩]

/-- The places of the facts about a repository. -/
def atlasSlots (atlas : Atlas) : List Slot :=
  [⟨"listOfFiles", WritesList (fun file => WritesRecord (fileSlots file)) atlas.files⟩,
    ⟨"edges", WritesList (fun edge => WritesRecord (edgeSlots edge)) atlas.edges⟩,
    ⟨"totalFiles", WritesCount atlas.totalFiles⟩,
    ⟨"totalFunctions", WritesCount atlas.totalFunctions⟩]

/-! ### Faults -/

/-- A place whose text holds no record. -/
def plainSlot (name : String) : Slot := ⟨name, fun _ => False⟩

/-- Where an edge may have a fault inside: nowhere. -/
def edgeFaults : List Slot := ["source", "target", "sourceFile", "targetFile"].map plainSlot

/-- Where a function may have a fault inside: nowhere. -/
def functionFaults : List Slot :=
  ["functionName", "name", "parameters", "returnType", "complexity", "startLine", "endLine",
    "lines", "code", "calls"].map plainSlot

/-- Where a file may have a fault inside: in its functions. -/
def fileFaults : List Slot :=
  [plainSlot "filePath", plainSlot "language", plainSlot "imports",
    ⟨"listOfFunctions", FaultyList (FaultyRecord functionFaults)⟩, plainSlot "totalLines",
    plainSlot "totalFunctions"]

/-- Where the facts about a repository may have a fault inside: in files and edges. -/
def atlasFaults : List Slot :=
  [⟨"listOfFiles", FaultyList (FaultyRecord fileFaults)⟩,
    ⟨"edges", FaultyList (FaultyRecord edgeFaults)⟩, plainSlot "totalFiles",
    plainSlot "totalFunctions"]

/-! ### Parts of a record -/

theorem WritesCount.reads {limit value : Nat} {written : Input} (writes : WritesCount value written)
    (small : value < limit) (wide : limit ≤ UInt64.size) (wanted : String) :
    Reads (readNatural limit wanted) written value := by
  obtain rfl := writes
  have reads := reads_natural small wide wanted 0
  rwa [Value.write] at reads

theorem WritesCount.reads_count {value : Nat} {written : Input}
    (writes : WritesCount value written) (small : value < UInt64.size) :
    Reads readCount written value :=
  writes.reads small (Nat.le_refl _) "usize"

theorem reads_textList {values : List String} {written : Input}
    (writes : WritesList WritesText values written) : Reads readTexts written values :=
  writes.reads fun _ _ _ writesText => writesText.reads

/-- Lists with the same names are the same set. -/
theorem ofList_eq_of_mem_iff {listed : List String} {set : NameSet}
    (same : ∀ name, name ∈ listed ↔ name ∈ set.names) : NameSet.ofList listed = set := by
  have names : (NameSet.ofList listed).names = set.names :=
    eq_of_pairwise_of_mem_iff String.lt_asymm (NameSet.ofList listed).ascending set.ascending
      fun name => NameSet.mem_names_ofList.trans (same name)
  rw [← NameSet.ofList_names (NameSet.ofList listed), names, NameSet.ofList_names]

/-! ### Edges -/

/-- An edge after some keys have been seen. -/
def filledEdge (edge : CallEdge) (seen : List String) : CallEdge where
  source := if "source" ∈ seen then edge.source else ""
  target := if "target" ∈ seen then edge.target else ""
  sourceFile := if "sourceFile" ∈ seen then edge.sourceFile else ""
  targetFile := if "targetFile" ∈ seen then edge.targetFile else ""

theorem fillable_edge (edge : CallEdge) :
    Fillable edgeShape (edgeSlots edge) (filledEdge edge) edge where
  distinct := by decide
  blank := rfl
  sets := by
    refine .cons (Reads.sets fun _ text => ⟨_, text.reads, by simp [filledEdge]⟩) ?_
    refine .cons (Reads.sets fun _ text => ⟨_, text.reads, by simp [filledEdge]⟩) ?_
    refine .cons (Reads.sets fun _ text => ⟨_, text.reads, by simp [filledEdge]⟩) ?_
    refine .cons (Reads.sets fun _ text => ⟨_, text.reads, by simp [filledEdge]⟩) ?_
    exact .nil
  ignores key seen isOther := by
    simp only [edgeSlots, List.forall_mem_cons] at isOther
    simp [filledEdge, isOther]
  full seen complete := by
    simp only [edgeSlots, List.forall_mem_cons] at complete
    simp [filledEdge, complete]

/-! ### Functions -/

/-- A function after some keys have been seen. -/
def filledFunction (facts : FunctionFacts) (seen : List String) : FunctionFacts where
  key := if "functionName" ∈ seen then facts.key else ""
  name := if "name" ∈ seen then facts.name else ""
  parameters := if "parameters" ∈ seen then facts.parameters else []
  returnType := if "returnType" ∈ seen then facts.returnType else ""
  complexity := if "complexity" ∈ seen then facts.complexity else 0
  startLine := if "startLine" ∈ seen then facts.startLine else 0
  endLine := if "endLine" ∈ seen then facts.endLine else 0
  lines := if "lines" ∈ seen then facts.lines else 0
  code := if "code" ∈ seen then facts.code else ""
  calls := if "calls" ∈ seen then facts.calls else .empty

theorem fillable_function {facts : FunctionFacts} (fits : facts.CountsFit) :
    Fillable functionShape (functionSlots facts) (filledFunction facts) facts where
  distinct := by decide
  blank := rfl
  sets := by
    refine .cons (Reads.sets fun _ text => ⟨_, text.reads, by simp [filledFunction]⟩) ?_
    refine .cons (Reads.sets fun _ text => ⟨_, text.reads, by simp [filledFunction]⟩) ?_
    refine .cons (Reads.sets fun _ list => ⟨_, reads_textList list, by simp [filledFunction]⟩) ?_
    refine .cons (Reads.sets fun _ text => ⟨_, text.reads, by simp [filledFunction]⟩) ?_
    refine .cons (Reads.sets fun _ number => ⟨_, number.reads facts.complexity.toNat_lt_size
      (by decide) "u32", by simp [filledFunction]⟩) ?_
    refine .cons (Reads.sets fun _ number =>
      ⟨_, number.reads_count fits.startLine, by simp [filledFunction]⟩) ?_
    refine .cons (Reads.sets fun _ number =>
      ⟨_, number.reads_count fits.endLine, by simp [filledFunction]⟩) ?_
    refine .cons (Reads.sets fun _ number =>
      ⟨_, number.reads_count fits.lines, by simp [filledFunction]⟩) ?_
    refine .cons (Reads.sets fun _ text => ⟨_, text.reads, by simp [filledFunction]⟩) ?_
    refine .cons (Reads.sets fun _ ⟨listed, same, list⟩ => ⟨listed, reads_textList list, ?_⟩) .nil
    simp [filledFunction, ofList_eq_of_mem_iff same]
  ignores key seen isOther := by
    simp only [functionSlots, List.forall_mem_cons] at isOther
    simp [filledFunction, isOther]
  full seen complete := by
    simp only [functionSlots, List.forall_mem_cons] at complete
    simp [filledFunction, complete]

/-! ### Files -/

/-- A file after some keys have been seen. -/
def filledFile (facts : FileFacts) (seen : List String) : FileFacts where
  path := if "filePath" ∈ seen then facts.path else ""
  language := if "language" ∈ seen then facts.language else .python
  imports := if "imports" ∈ seen then facts.imports else []
  functions := if "listOfFunctions" ∈ seen then facts.functions else []
  totalLines := if "totalLines" ∈ seen then facts.totalLines else 0
  totalFunctions := if "totalFunctions" ∈ seen then facts.totalFunctions else 0

theorem fillable_file {facts : FileFacts} (fits : facts.CountsFit) :
    Fillable fileShape (fileSlots facts) (filledFile facts) facts where
  distinct := by decide
  blank := rfl
  sets := by
    have functions {written : Input} (list : WritesList
        (fun function => WritesRecord (functionSlots function)) facts.functions written) :
        Reads (readList functionShape.read) written facts.functions :=
      list.reads fun function member _ record =>
        (fillable_function (fits.functions function member)).reads record
    refine .cons (Reads.sets fun _ text => ⟨_, text.reads, by simp [filledFile]⟩) ?_
    refine .cons (Reads.sets fun _ name =>
      ⟨_, name.reads_choice facts.language.ofName?_name, by simp [filledFile]⟩) ?_
    refine .cons (Reads.sets fun _ list => ⟨_, reads_textList list, by simp [filledFile]⟩) ?_
    refine .cons (Reads.sets fun _ list => ⟨_, functions list, by simp [filledFile]⟩) ?_
    refine .cons (Reads.sets fun _ number =>
      ⟨_, number.reads_count fits.totalLines, by simp [filledFile]⟩) ?_
    refine .cons (Reads.sets fun _ number =>
      ⟨_, number.reads_count fits.totalFunctions, by simp [filledFile]⟩) ?_
    exact .nil
  ignores key seen isOther := by
    simp only [fileSlots, List.forall_mem_cons] at isOther
    simp [filledFile, isOther]
  full seen complete := by
    simp only [fileSlots, List.forall_mem_cons] at complete
    simp [filledFile, complete]

/-! ### Repositories -/

/-- The facts about a repository after some keys have been seen. -/
def filledAtlas (atlas : Atlas) (seen : List String) : Atlas where
  files := if "listOfFiles" ∈ seen then atlas.files else []
  edges := if "edges" ∈ seen then atlas.edges else []
  totalFiles := if "totalFiles" ∈ seen then atlas.totalFiles else 0
  totalFunctions := if "totalFunctions" ∈ seen then atlas.totalFunctions else 0

theorem fillable_atlas {atlas : Atlas} (fits : atlas.CountsFit) :
    Fillable atlasShape (atlasSlots atlas) (filledAtlas atlas) atlas where
  distinct := by decide
  blank := rfl
  sets := by
    have files {written : Input}
        (list : WritesList (fun file => WritesRecord (fileSlots file)) atlas.files written) :
        Reads (readList fileShape.read) written atlas.files :=
      list.reads fun file member _ record => (fillable_file (fits.files file member)).reads record
    have edges {written : Input}
        (list : WritesList (fun edge => WritesRecord (edgeSlots edge)) atlas.edges written) :
        Reads (readList edgeShape.read) written atlas.edges :=
      list.reads fun edge _ _ record => (fillable_edge edge).reads record
    refine .cons (Reads.sets fun _ list => ⟨_, files list, by simp [filledAtlas]⟩) ?_
    refine .cons (Reads.sets fun _ list => ⟨_, edges list, by simp [filledAtlas]⟩) ?_
    refine .cons (Reads.sets fun _ number =>
      ⟨_, number.reads_count fits.totalFiles, by simp [filledAtlas]⟩) ?_
    refine .cons (Reads.sets fun _ number =>
      ⟨_, number.reads_count fits.totalFunctions, by simp [filledAtlas]⟩) ?_
    exact .nil
  ignores key seen isOther := by
    simp only [atlasSlots, List.forall_mem_cons] at isOther
    simp [filledAtlas, isOther]
  full seen complete := by
    simp only [atlasSlots, List.forall_mem_cons] at complete
    simp [filledAtlas, complete]

/-! ### Layouts are JSON -/

theorem isValue_text {value : String} (written : Input) (text : WritesText value written) :
    IsValue written := text.isValue

theorem isValue_texts {values : List String} (written : Input)
    (list : WritesList WritesText values written) : IsValue written :=
  list.isValue fun _ _ => isValue_text

theorem isValue_count {value : Nat} (written : Input) (writes : WritesCount value written) :
    IsValue written := by
  obtain rfl := writes
  have isWhole : IsWhole (Nat.toDigits 10 value) := by
    refine ⟨⟨Nat.toDigits_ne_nil, fun _ => isDigit_of_mem_toDigits⟩, fun startsWithZero => ?_⟩
    obtain ⟨digits, split⟩ := List.head?_eq_some_iff.mp startsWithZero
    rw [eq_zero_of_toDigits split]
    rfl
  have isNumber := IsNumber.parts isWhole .nil .nil
  rw [List.append_nil, List.append_nil] at isNumber
  exact .number isNumber

theorem isValue_edge {edge : CallEdge} {written : Input}
    (record : WritesRecord (edgeSlots edge) written) : IsValue written := by
  refine record.isValue ?_
  simp only [edgeSlots, List.forall_mem_cons]
  exact ⟨isValue_text, isValue_text, isValue_text, isValue_text, by simp⟩

theorem isValue_function {facts : FunctionFacts} {written : Input}
    (record : WritesRecord (functionSlots facts) written) : IsValue written := by
  refine record.isValue ?_
  simp only [functionSlots, List.forall_mem_cons]
  exact ⟨isValue_text, isValue_text, isValue_texts, isValue_text, isValue_count, isValue_count,
    isValue_count, isValue_count, isValue_text, fun _ ⟨_, _, list⟩ => isValue_texts _ list,
    by simp⟩

theorem isValue_file {facts : FileFacts} {written : Input}
    (record : WritesRecord (fileSlots facts) written) : IsValue written := by
  refine record.isValue ?_
  simp only [fileSlots, List.forall_mem_cons]
  exact ⟨isValue_text, isValue_text, isValue_texts,
    fun _ list => list.isValue fun _ _ _ => isValue_function, isValue_count, isValue_count,
    by simp⟩

/-- Every layout of the facts about a repository is JSON. -/
theorem isValue_atlas {atlas : Atlas} {written : Input}
    (record : WritesRecord (atlasSlots atlas) written) : IsValue written := by
  refine record.isValue ?_
  simp only [atlasSlots, List.forall_mem_cons]
  exact ⟨fun _ list => list.isValue fun _ _ _ => isValue_file,
    fun _ list => list.isValue fun _ _ _ => isValue_edge, isValue_count, isValue_count, by simp⟩

/-! ### Refusals -/

/-- A place that holds no record has no fault. -/
theorem guards_plain {α β : Type} {read : Reader β} (exact : Exact read) (name : String)
    (set : α → β → α) : Guards (Field.of name read set) (plainSlot name) :=
  ⟨rfl, fun record => ⟨exact.field name set record, fun _ => False.elim⟩⟩

/-- A place that holds a list of records has the faults of the records. -/
theorem guards_list {α β : Type} {shape : Shape β} {slots : List Slot}
    (guards : List.Forall₂ Guards shape.fields slots)
    (distinct : (shape.fields.map (·.name)).Nodup) (name : String) (set : α → List β → α) :
    Guards (Field.of name (readList shape.read) set) ⟨name, FaultyList (FaultyRecord slots)⟩ := by
  have exact : Exact shape.read := Shape.exact_read (exact_of_guards guards)
  refine ⟨rfl, fun record => ⟨(exact_readList exact).field name set record, fun _ list => ?_⟩⟩
  exact (list.refuses exact fun _ faulty => faulty.refuses guards distinct).field name set record

theorem exact_count : Exact readCount := exact_readNatural _ _

theorem exact_texts : Exact readTexts := exact_readList exact_readText

theorem guards_edge : List.Forall₂ Guards edgeShape.fields edgeFaults := by
  refine .cons (guards_plain exact_readText _ _) ?_
  refine .cons (guards_plain exact_readText _ _) ?_
  refine .cons (guards_plain exact_readText _ _) ?_
  refine .cons (guards_plain exact_readText _ _) ?_
  exact .nil

theorem guards_function : List.Forall₂ Guards functionShape.fields functionFaults := by
  refine .cons (guards_plain exact_readText _ _) ?_
  refine .cons (guards_plain exact_readText _ _) ?_
  refine .cons (guards_plain exact_texts _ _) ?_
  refine .cons (guards_plain exact_readText _ _) ?_
  refine .cons (guards_plain (exact_readNatural _ _) _ _) ?_
  refine .cons (guards_plain exact_count _ _) ?_
  refine .cons (guards_plain exact_count _ _) ?_
  refine .cons (guards_plain exact_count _ _) ?_
  refine .cons (guards_plain exact_readText _ _) ?_
  refine .cons (guards_plain exact_texts _ _) ?_
  exact .nil

theorem guards_file : List.Forall₂ Guards fileShape.fields fileFaults := by
  refine .cons (guards_plain exact_readText _ _) ?_
  refine .cons (guards_plain (exact_readChoice _ _) _ _) ?_
  refine .cons (guards_plain exact_texts _ _) ?_
  refine .cons (guards_list guards_function (by decide) _ _) ?_
  refine .cons (guards_plain exact_count _ _) ?_
  refine .cons (guards_plain exact_count _ _) ?_
  exact .nil

theorem guards_atlas : List.Forall₂ Guards atlasShape.fields atlasFaults := by
  refine .cons (guards_list guards_file (by decide) _ _) ?_
  refine .cons (guards_list guards_edge (by decide) _ _) ?_
  refine .cons (guards_plain exact_count _ _) ?_
  refine .cons (guards_plain exact_count _ _) ?_
  exact .nil

end Wire

open Wire

/-- A document is read as the facts that it is a layout of, and it is not read if in some record of
it a key is missing or repeated. Every layout is JSON, so it is such a document once a key is taken
out or written twice. -/
theorem Atlas.parse_document (document : String) :
    (∀ atlas : Atlas, atlas.CountsFit → IsDocument (WritesRecord (atlasSlots atlas)) document →
      Atlas.parse document = .ok atlas) ∧
    (IsDocument (FaultyRecord atlasFaults) document →
      ∃ fault, Atlas.parse document = .error fault) ∧
    (∀ atlas : Atlas, IsDocument (WritesRecord (atlasSlots atlas)) document →
      IsDocument IsValue document) := by
  refine ⟨fun atlas fits isDocument => ?_, fun isDocument => ?_, fun atlas isDocument => ?_⟩
  · exact isDocument.parse fun _ record => (fillable_atlas fits).reads record
  · exact isDocument.parse_eq_error fun _ faulty => faulty.refuses guards_atlas (by decide)
  · exact isDocument.imp fun _ => isValue_atlas

/-- Facts about a single edge. -/
def edgeAtlas : Atlas where
  edges := [⟨"f", "g", "a", "b"⟩]
  totalFiles := 1
  totalFunctions := 2

/-- The edge as an object: its keys in another order, and one more. -/
def permutedEdge : String :=
  "\x7b\"target\":\"g\",\"x\":[],\"source\":\"f\",\"targetFile\":\"b\",\"sourceFile\":\"a\"\x7d"

/-- The same without its source. -/
def cutEdge : String :=
  "\x7b\"target\":\"g\",\"x\":[],\"targetFile\":\"b\",\"sourceFile\":\"a\"\x7d"

/-- A list of the facts, with a text in the place of the edge. -/
def edgeDocument (edge : String) : String :=
  String.ofList ('[' :: (['[', ']'] ++
    compact .list ['[' :: (edge.toList ++ [']']), ['1'], ['2']]))

theorem edgeAtlas_countsFit : edgeAtlas.CountsFit :=
  ⟨by simp [edgeAtlas], by decide, by decide⟩

theorem permutedEdge_isLayout :
    WritesRecord (edgeSlots ⟨"f", "g", "a", "b"⟩) permutedEdge.toList := by
  have members := List.Forall₂.cons (writesMember_self "target" ['"', 'g', '"'] (by decide))
    (.cons (writesMember_self "x" ['[', ']'] (by decide))
      (.cons (writesMember_self "source" ['"', 'f', '"'] (by decide))
        (.cons (writesMember_self "targetFile" ['"', 'b', '"'] (by decide))
          (.cons (writesMember_self "sourceFile" ['"', 'a', '"'] (by decide)) .nil))))
  obtain ⟨edge, record, text⟩ :
      ∃ edge, WritesRecord (edgeSlots ⟨"f", "g", "a", "b"⟩) edge ∧ permutedEdge.toList = edge := by
    refine ⟨_, .object members (enclosed_compact .object _ _) ?_ ?_ ?_, ?_⟩
    · simp [edgeSlots]
    · have target := writesText_self "g" (by decide)
      have source := writesText_self "f" (by decide)
      have targetFile := writesText_self "b" (by decide)
      have sourceFile := writesText_self "a" (by decide)
      simpa [edgeSlots] using ⟨target, source, targetFile, sourceFile⟩
    · have other : IsValue ['[', ']'] := .list (by simp) (.empty areBlank_nil)
      simpa [edgeSlots] using other
    · simp [permutedEdge, compact, Bracket.closing]
  rwa [text]

theorem edgeDocument_isLayout {edge : String}
    (record : WritesRecord (edgeSlots ⟨"f", "g", "a", "b"⟩) edge.toList) :
    IsDocument (WritesRecord (atlasSlots edgeAtlas)) (edgeDocument edge) := by
  have edges : WritesList (fun edge => WritesRecord (edgeSlots edge)) edgeAtlas.edges
      ('[' :: (edge.toList ++ [']'])) :=
    .list (.cons record .nil) (enclosed_compact .list edge.toList [])
  have values : List.Forall₂ (fun slot item => slot.texts item) (atlasSlots edgeAtlas)
      [['[', ']'], '[' :: (edge.toList ++ [']']), ['1'], ['2']] :=
    .cons (.list .nil (.empty areBlank_nil)) (.cons edges (.cons rfl (.cons rfl .nil)))
  refine ⟨[], _, [], areBlank_nil, areBlank_nil, .list values (enclosed_compact .list _ _), ?_⟩
  rw [edgeDocument, String.toList_ofList, List.append_nil, List.nil_append]

theorem cutEdge_isFaulty :
    IsValue cutEdge.toList ∧ FaultyRecord edgeFaults cutEdge.toList := by
  have members := List.Forall₂.cons (writesMember_self "target" ['"', 'g', '"'] (by decide))
    (.cons (writesMember_self "x" ['[', ']'] (by decide))
      (.cons (writesMember_self "targetFile" ['"', 'b', '"'] (by decide))
        (.cons (writesMember_self "sourceFile" ['"', 'a', '"'] (by decide)) .nil)))
  have areValues : ∀ member ∈ [("target", ['"', 'g', '"']), ("x", ['[', ']']),
      ("targetFile", ['"', 'b', '"']), ("sourceFile", ['"', 'a', '"'])], IsValue member.2 := by
    simp only [List.forall_mem_cons]
    exact ⟨isValue_text _ (writesText_self "g" (by decide)),
      .list (by simp) (.empty areBlank_nil), isValue_text _ (writesText_self "b" (by decide)),
      isValue_text _ (writesText_self "a" (by decide)), by simp⟩
  obtain ⟨edge, isValue, isFaulty, text⟩ :
      ∃ edge, IsValue edge ∧ FaultyRecord edgeFaults edge ∧ cutEdge.toList = edge := by
    refine ⟨_, isValue_object members areValues (enclosed_compact .object _ _),
      .keys members areValues (enclosed_compact .object _ _) (.head _) ?_, ?_⟩
    · decide
    · simp [cutEdge, compact, Bracket.closing]
  exact text ▸ ⟨isValue, isFaulty⟩

theorem edgeDocument_isFaulty {edge : String} (isValue : IsValue edge.toList)
    (isFaulty : FaultyRecord edgeFaults edge.toList) :
    IsDocument (FaultyRecord atlasFaults) (edgeDocument edge) := by
  have edges : Enclosed .list [edge.toList] (edge.toList ++ [']']) :=
    enclosed_compact .list edge.toList []
  have areValues : ∀ item ∈ [['[', ']'], '[' :: (edge.toList ++ [']']), ['1'], ['2']],
      IsValue item := by
    simp only [List.forall_mem_cons]
    exact ⟨.list (by simp) (.empty areBlank_nil), .list (by simpa using isValue) edges,
      isValue_count _ (show WritesCount 1 ['1'] from rfl),
      isValue_count _ (show WritesCount 2 ['2'] from rfl), by simp⟩
  refine ⟨[], _, [], areBlank_nil, areBlank_nil, .element areValues (enclosed_compact .list _ _)
    (.tail _ (.head _)) (.list (by simpa using isValue) edges (.head _) isFaulty), ?_⟩
  rw [edgeDocument, String.toList_ofList, List.append_nil, List.nil_append]

/-- Keys may be permuted and others added, but none may be left out. -/
theorem edgeAtlas_parse_document :
    edgeAtlas.CountsFit ∧
      IsDocument (WritesRecord (atlasSlots edgeAtlas)) (edgeDocument permutedEdge) ∧
      Atlas.parse (edgeDocument permutedEdge) = .ok edgeAtlas ∧
      IsDocument IsValue (edgeDocument permutedEdge) ∧
      IsDocument (FaultyRecord atlasFaults) (edgeDocument cutEdge) ∧
      ∃ fault, Atlas.parse (edgeDocument cutEdge) = .error fault := by
  obtain ⟨reads, -, isValue⟩ := Atlas.parse_document (edgeDocument permutedEdge)
  have isLayout := edgeDocument_isLayout permutedEdge_isLayout
  have isFaulty := edgeDocument_isFaulty cutEdge_isFaulty.1 cutEdge_isFaulty.2
  exact ⟨edgeAtlas_countsFit, isLayout, reads edgeAtlas edgeAtlas_countsFit isLayout,
    isValue edgeAtlas isLayout, isFaulty,
    (Atlas.parse_document (edgeDocument cutEdge)).2.1 isFaulty⟩

end CodeAtlas
