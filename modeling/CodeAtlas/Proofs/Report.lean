/-
The paint of a report. A painted report is the plain one with control sequences put in, and nothing
else is different: widths are made up before a text is painted, so that what the terminal does not
show takes no room in a column. Taking the sequences out again gives the plain report, as a whole
and also line by line, since no sequence runs over the end of a line.

The texts that a report takes from an atlas must not hold escape characters of their own; they could
not be told from paint.
-/
import Mathlib.Data.List.Forall2
import CodeAtlas.Report
import CodeAtlas.Proofs.Extract.LineSpans

namespace CodeAtlas.Report

/-! ### Taking paint off -/

theorem length_lt_of_dropWhile {rest behind : List Char} {last : Char}
    (found : rest.dropWhile (· != 'm') = last :: behind) : behind.length < rest.length := by
  have shorter : (rest.dropWhile (· != 'm')).length ≤ rest.length :=
    (List.dropWhile_suffix _).length_le
  rwa [found] at shorter

/-- A text without its control sequences. A sequence goes from an escape character with a bracket
right behind it to the next `m`; an escape character that no `m` follows stays. -/
def unpainted (text : List Char) : List Char :=
  match text with
  | [] => []
  | '\x1b' :: '[' :: rest =>
    match found : rest.dropWhile (· != 'm') with
    | [] => '\x1b' :: unpainted ('[' :: rest)
    | _ :: behind =>
      have := length_lt_of_dropWhile found
      unpainted behind
  | char :: rest => char :: unpainted rest
termination_by text.length

theorem unpainted_cons {char : Char} (visible : char ≠ '\x1b') (rest : List Char) :
    unpainted (char :: rest) = char :: unpainted rest := by
  rw [unpainted]
  intro _ same
  exact absurd same visible

theorem unpainted_control {codes : List Char} (closed : 'm' ∉ codes) (rest : List Char) :
    unpainted (control codes ++ rest) = unpainted rest := by
  -- The codes hold no `m`, so the next one is the end of the sequence.
  have passed : (codes ++ 'm' :: rest).dropWhile (· != 'm') = 'm' :: rest := by
    rw [List.dropWhile_append_of_pos, List.dropWhile_cons_of_neg (by decide)]
    intro char member
    exact bne_iff_ne.mpr fun same => closed (same ▸ member)
  have shape : control codes ++ rest = '\x1b' :: '[' :: (codes ++ 'm' :: rest) := by
    simp [control]
  rw [shape, unpainted]
  split
  next found =>
    rw [passed] at found
    cases found
  next found =>
    rw [passed] at found
    cases found
    rfl

/-! ### Paint -/

/-- A text is another one with paint: with control sequences put in, of which none runs over the end
of a line. The texts hold no other escape characters. -/
inductive Paints : List Char → List Char → Prop
  | nil : Paints [] []
  | char {char : Char} {painted plain : List Char} (visible : char ≠ '\x1b')
      (rest : Paints painted plain) : Paints (char :: painted) (char :: plain)
  | sequence {codes painted plain : List Char} (closed : 'm' ∉ codes) (inLine : '\n' ∉ codes)
      (rest : Paints painted plain) : Paints (control codes ++ painted) plain

namespace Paints

variable {painted plain : List Char}

theorem append {otherPainted otherPlain : List Char} (first : Paints painted plain)
    (second : Paints otherPainted otherPlain) :
    Paints (painted ++ otherPainted) (plain ++ otherPlain) := by
  induction first with
  | nil => exact second
  | char visible _ inductionHypothesis => exact .char visible inductionHypothesis
  | sequence closed inLine _ inductionHypothesis =>
    rw [List.append_assoc]
    exact .sequence closed inLine inductionHypothesis

theorem of_clear {text : List Char} (clear : '\x1b' ∉ text) : Paints text text := by
  induction text with
  | nil => exact .nil
  | cons char text inductionHypothesis =>
    exact .char (List.ne_of_not_mem_cons clear).symm
      (inductionHypothesis (List.not_mem_of_not_mem_cons clear))

theorem append_clear {text : List Char} (first : Paints painted plain) (clear : '\x1b' ∉ text) :
    Paints (painted ++ text) (plain ++ text) :=
  first.append (.of_clear clear)

theorem flatMap {Item : Type} {items : List Item} {first second : Item → List Char}
    (each : ∀ item ∈ items, Paints (first item) (second item)) :
    Paints (items.flatMap first) (items.flatMap second) := by
  induction items with
  | nil => exact .nil
  | cons item items inductionHypothesis =>
    rw [List.flatMap_cons, List.flatMap_cons]
    exact (each item (.head _)).append
      (inductionHypothesis fun other member => each other (.tail _ member))

/-- Without its control sequences a painted text is the plain one. -/
theorem unpainted_eq (paints : Paints painted plain) : unpainted painted = plain := by
  induction paints with
  | nil => rw [unpainted]
  | char visible _ inductionHypothesis => rw [unpainted_cons visible, inductionHypothesis]
  | sequence closed _ _ inductionHypothesis => rw [unpainted_control closed, inductionHypothesis]

end Paints

/-! ### Painted lines -/

theorem lines_append_of_not_mem {front : List Char} (inLine : '\n' ∉ front) (rest : List Char) :
    Text.lines (front ++ rest) = (Text.lines rest).modifyHead (front ++ ·) := by
  induction front with
  | nil => exact (congrFun List.modifyHead_id _).symm
  | cons char front inductionHypothesis =>
    have different : char ≠ '\n' := (List.ne_of_not_mem_cons inLine).symm
    rw [List.cons_append, Text.lines, List.splitOn, List.splitOnP_cons_eq_if_modifyHead,
      if_neg (by simpa using different)]
    show (Text.lines (front ++ rest)).modifyHead _ = _
    rw [inductionHypothesis (List.not_mem_of_not_mem_cons inLine), List.modifyHead_modifyHead]
    rfl

theorem forall₂_modifyHead {Item : Type} {relation : Item → Item → Prop} {first second : List Item}
    {change other : Item → Item} (related : List.Forall₂ relation first second)
    (changed : ∀ {left right}, relation left right → relation (change left) (other right)) :
    List.Forall₂ relation (first.modifyHead change) (second.modifyHead other) := by
  cases related with
  | nil => exact .nil
  | cons head tail => exact .cons (changed head) tail

/-- Every line of a painted text is the line of the plain one with paint. -/
theorem Paints.lines {painted plain : List Char} (paints : Paints painted plain) :
    List.Forall₂ Paints (Text.lines painted) (Text.lines plain) := by
  induction paints with
  | nil => exact .cons .nil .nil
  | @char char painted plain visible _ inductionHypothesis =>
    -- A line feed starts another line, and any other character stands at the front of one.
    by_cases newline : char = '\n'
    · subst newline
      have split (rest : List Char) : Text.lines ('\n' :: rest) = [] :: Text.lines rest :=
        Text.lines_append_newline [] rest
      rw [split, split]
      exact .cons .nil inductionHypothesis
    · have inLine : '\n' ∉ [char] := by simpa [eq_comm] using newline
      have split (rest : List Char) :
          Text.lines (char :: rest) = (Text.lines rest).modifyHead ([char] ++ ·) :=
        lines_append_of_not_mem inLine rest
      rw [split, split]
      exact forall₂_modifyHead inductionHypothesis (.char visible)
  | @sequence codes painted plain closed inLine _ inductionHypothesis =>
    have split : Text.lines (control codes ++ painted) =
        (Text.lines painted).modifyHead (control codes ++ ·) :=
      lines_append_of_not_mem (by simpa [control] using inLine) painted
    have same : (Text.lines plain).modifyHead id = Text.lines plain :=
      congrFun List.modifyHead_id _
    rw [split, ← same]
    exact forall₂_modifyHead inductionHypothesis (.sequence closed inLine)

theorem Paints.map_unpainted_lines {painted plain : List Char} (paints : Paints painted plain) :
    (Text.lines painted).map unpainted = Text.lines plain := by
  rw [← List.forall₂_eq_eq_eq, List.forall₂_map_left_iff]
  exact paints.lines.imp fun _ _ => Paints.unpainted_eq

/-! ### Parts of a report -/

/-- No style runs over the end of its sequence or over the end of a line. -/
theorem not_mem_codes (style : Style) : 'm' ∉ style.codes ∧ '\n' ∉ style.codes := by
  cases style <;> decide

theorem resume_of_clear {sequence text : List Char} (clear : '\x1b' ∉ text) :
    resume sequence text = text := by
  fun_induction resume sequence text with
  | case1 rest => exact absurd List.mem_cons_self clear
  | case2 char rest _ inductionHypothesis =>
    rw [inductionHypothesis fun member => clear (List.mem_cons_of_mem _ member)]
  | case3 => rfl

theorem paints_paint (style : Style) {text : List Char} (clear : '\x1b' ∉ text) :
    Paints (paint true style text) (paint false style text) := by
  show Paints (control style.codes ++ resume (control style.codes) text ++ reset) text
  obtain ⟨closed, inLine⟩ := not_mem_codes style
  have switchedOff : Paints (control ['0'] ++ []) [] := .sequence (by decide) (by decide) .nil
  have whole := (Paints.of_clear clear).append switchedOff
  rw [List.append_nil, List.append_nil] at whole
  -- A clear text switches no style off, so no style has to be switched on again.
  rw [resume_of_clear clear, List.append_assoc]
  exact .sequence closed inLine whole

theorem clear_number (value : Nat) : '\x1b' ∉ number value := by
  intro member
  have digit := Nat.isDigit_of_mem_toDigits (by decide) (by decide) member
  exact absurd digit (by decide)

theorem clear_padRight {text : List Char} (width : Nat) (clear : '\x1b' ∉ text) :
    '\x1b' ∉ padRight width text := by
  simp [padRight, clear]

theorem clear_padLeft {text : List Char} (width : Nat) (clear : '\x1b' ∉ text) :
    '\x1b' ∉ padLeft width text := by
  simp [padLeft, clear]

theorem clear_intercalate {texts : List String}
    (clear : ∀ text ∈ texts, '\x1b' ∉ text.toList) : '\x1b' ∉ (", ".intercalate texts).toList := by
  induction texts with
  | nil => decide
  | cons text texts inductionHypothesis =>
    have rest := inductionHypothesis fun other member => clear other (.tail _ member)
    cases texts with
    | nil =>
      rw [String.intercalate_singleton]
      exact clear text (.head _)
    | cons next texts =>
      rw [String.intercalate_cons_cons, String.toList_append, String.toList_append]
      simp only [List.mem_append, not_or]
      exact ⟨⟨clear text (.head _), by decide⟩, rest⟩

/-! ### Reports -/

/-- The strings of a file that a report shows. -/
def fileStrings (file : FileFacts) : List String :=
  file.path :: (file.imports ++ file.functions.map (·.name))

/-- The strings that a report about an atlas shows: what was looked at, and of the atlas the paths,
imports and names of functions, and the two ends of the edges. -/
def shownStrings (path : String) (atlas : Atlas) : List String :=
  path :: (atlas.files.flatMap fileStrings ++
    atlas.edges.flatMap fun edge => [edge.source, edge.target])

theorem paints_header {path : String} (clear : '\x1b' ∉ path.toList) :
    Paints (header true path) (header false path) := by
  have name := paints_paint .boldCyan (show '\x1b' ∉ "archmap".toList by decide)
  have label := paints_paint .dimmed (show '\x1b' ∉ "Analyzing: ".toList by decide)
  exact Paints.of_clear (by decide) |>.append name |>.append_clear (by decide)
    |>.append_clear (by decide) |>.append_clear (by decide) |>.append label
    |>.append_clear clear |>.append_clear (by decide)

theorem paints_summary (atlas : Atlas) : Paints (summary true atlas) (summary false atlas) := by
  have count (value : Nat) := paints_paint .bold (clear_number value)
  exact Paints.of_clear (by decide) |>.append (count _) |>.append_clear (by decide)
    |>.append (count _) |>.append_clear (by decide) |>.append (count _)
    |>.append_clear (by decide)

theorem paints_functionLine {function : FunctionFacts} (clear : '\x1b' ∉ function.name.toList) :
    Paints (functionLine true function) (functionLine false function) := by
  have complexity := paints_paint (complexityStyle function.complexity.toNat)
    (show '\x1b' ∉ "cc ".toList ++ padLeft 3 (number function.complexity.toNat) from
      List.not_mem_append (by decide) (clear_padLeft 3 (clear_number _)))
  have span := paints_paint .dimmed
    (show '\x1b' ∉ "L".toList ++ number function.startLine ++ "-".toList ++
        number function.endLine from
      List.not_mem_append (List.not_mem_append (List.not_mem_append (by decide) (clear_number _))
        (by decide)) (clear_number _))
  exact Paints.of_clear (by decide) |>.append_clear (clear_padRight 32 clear)
    |>.append complexity |>.append_clear (by decide) |>.append span |>.append_clear (by decide)

theorem paints_importsLine {imports : List String}
    (clear : ∀ text ∈ imports, '\x1b' ∉ text.toList) :
    Paints (importsLine true imports) (importsLine false imports) := by
  unfold importsLine
  split
  · exact .nil
  · have label := paints_paint .dimmed (show '\x1b' ∉ "imports:".toList by decide)
    exact Paints.of_clear (by decide) |>.append label |>.append_clear (by decide)
      |>.append_clear (clear_intercalate clear) |>.append_clear (by decide)

theorem clear_languageName (language : Language) : '\x1b' ∉ language.name.toList := by
  cases language <;> decide

theorem paints_fileLines {file : FileFacts}
    (clear : ∀ text ∈ fileStrings file, '\x1b' ∉ text.toList) :
    Paints (fileLines true file) (fileLines false file) := by
  have path := paints_paint .blue (clear file.path (.head _))
  have size := paints_paint .dimmed
    (show '\x1b' ∉ file.language.name.toList ++ " · ".toList ++ number file.totalLines ++
        " lines".toList from
      List.not_mem_append (List.not_mem_append (List.not_mem_append (clear_languageName _)
        (by decide)) (clear_number _)) (by decide))
  have imports := paints_importsLine fun text member =>
    clear text (.tail _ (List.mem_append_left _ member))
  have functions : Paints (file.functions.flatMap (functionLine true))
      (file.functions.flatMap (functionLine false)) := .flatMap fun function member =>
    paints_functionLine
      (clear function.name (.tail _ (List.mem_append_right _ (List.mem_map_of_mem member))))
  exact Paints.of_clear (by decide) |>.append path |>.append_clear (by decide) |>.append size
    |>.append_clear (by decide) |>.append imports |>.append functions |>.append_clear (by decide)

theorem paints_edgeLine {edge : CallEdge} (source : '\x1b' ∉ edge.source.toList)
    (target : '\x1b' ∉ edge.target.toList) : Paints (edgeLine true edge) (edgeLine false edge) := by
  have arrow := paints_paint .dimmed (show '\x1b' ∉ "→".toList by decide)
  exact Paints.of_clear (by decide) |>.append_clear source |>.append_clear (by decide)
    |>.append arrow |>.append_clear (by decide) |>.append_clear target |>.append_clear (by decide)

theorem paints_edgeLines {edges : List CallEdge}
    (each : ∀ edge ∈ edges, Paints (edgeLine true edge) (edgeLine false edge)) :
    Paints (edgeLines true edges) (edgeLines false edges) := by
  unfold edgeLines
  split
  · exact .nil
  · have label := paints_paint .bold (show '\x1b' ∉ "Cross-file calls".toList by decide)
    exact Paints.of_clear (by decide) |>.append label |>.append_clear (by decide)
      |>.append_clear (clear_number _) |>.append_clear (by decide) |>.append (.flatMap each)
      |>.append_clear (by decide)

theorem paints_text {path : String} {atlas : Atlas}
    (clear : ∀ string ∈ shownStrings path atlas, '\x1b' ∉ string.toList) :
    Paints (text true path atlas) (text false path atlas) := by
  have files : Paints (atlas.files.flatMap (fileLines true))
      (atlas.files.flatMap (fileLines false)) :=
    .flatMap fun file member => paints_fileLines fun string inFile =>
      clear string (.tail _ (List.mem_append_left _ (List.mem_flatMap.mpr ⟨file, member, inFile⟩)))
  have edges : Paints (edgeLines true atlas.edges) (edgeLines false atlas.edges) := by
    refine paints_edgeLines fun edge member => ?_
    have shown (string : String) (inEdge : string ∈ [edge.source, edge.target]) :=
      clear string (.tail _ (List.mem_append_right _ (List.mem_flatMap.mpr ⟨edge, member, inEdge⟩)))
    exact paints_edgeLine (shown _ (.head _)) (shown _ (.tail _ (.head _)))
  exact paints_header (clear path (.head _)) |>.append (paints_summary atlas) |>.append files
    |>.append edges

/-- If no string that a report shows holds an escape character, the painted report without its
control sequences is the plain report. This holds of each line, so what stands in a column of the
one stands in the same column of the other, however long the names and however high the
complexities are. -/
theorem unpainted_text_eq_plain (path : String) (atlas : Atlas)
    (clear : ∀ string ∈ shownStrings path atlas, '\x1b' ∉ string.toList) :
    unpainted (text true path atlas) = text false path atlas ∧
      (Text.lines (text true path atlas)).map unpainted = Text.lines (text false path atlas) :=
  ⟨(paints_text clear).unpainted_eq, (paints_text clear).map_unpainted_lines⟩

/-- Two functions in two files, of which one has a name that is wider than its column and a high
complexity, and calls the other. -/
def crowdedAtlas : Atlas where
  files :=
    [⟨"größe.py", .python, ["os", "sys"],
        [⟨"größe.py-measure_all_things_of_every_size_and_shape",
          "measure_all_things_of_every_size_and_shape", ["a"], "int", 1234, 3, 120, 118, "",
          .empty⟩],
        121, 1⟩,
      ⟨"b.rs", .rust, [], [⟨"b.rs-g", "g", [], "unknown", 7, 1, 1, 1, "", .empty⟩], 2, 1⟩]
  edges := [⟨"größe.py-measure_all_things_of_every_size_and_shape", "b.rs-g", "größe.py", "b.rs"⟩]
  totalFiles := 2
  totalFunctions := 2

/-- The report is painted, and without the paint it is the plain one. -/
theorem crowdedAtlas_unpainted :
    (∀ string ∈ shownStrings "." crowdedAtlas, '\x1b' ∉ string.toList) ∧
      text true "." crowdedAtlas ≠ text false "." crowdedAtlas ∧
      unpainted (text true "." crowdedAtlas) = text false "." crowdedAtlas ∧
      (Text.lines (text true "." crowdedAtlas)).map unpainted =
        Text.lines (text false "." crowdedAtlas) := by
  have clear : ∀ string ∈ shownStrings "." crowdedAtlas, '\x1b' ∉ string.toList := by decide +kernel
  exact ⟨clear, by decide +kernel, unpainted_text_eq_plain "." crowdedAtlas clear⟩

end CodeAtlas.Report
