/-
Paths and their components. Joining puts the pieces of two paths one behind the other, so the
components of a path below a base are those of the base followed by the names below it. The
path of a walked file, its name, its extension and the way it is shown all follow from that.
-/
import CodeAtlas.FileSystem
import CodeAtlas.Language
import CodeAtlas.Proofs.Text.Showing
import CodeAtlas.Walk

namespace CodeAtlas

namespace Path

/-! ### Pieces between slashes -/

theorem splitSlashes_ne_nil (path : Path) : splitSlashes path ≠ [] := by
  fun_cases splitSlashes path <;> simp_all

theorem splitSlashes_slash (rest : Path) :
    splitSlashes (slash :: rest) = [] :: splitSlashes rest := by
  rw [splitSlashes, if_pos rfl]

theorem splitSlashes_cons {byte : UInt8} (notSlash : byte ≠ slash) {rest : Path} {piece : Name}
    {pieces : List Name} (split : splitSlashes rest = piece :: pieces) :
    splitSlashes (byte :: rest) = (byte :: piece) :: pieces := by
  rw [splitSlashes, if_neg notSlash, split]

theorem splitSlashes_append_slash (front back : Path) :
    splitSlashes (front ++ slash :: back) = splitSlashes front ++ splitSlashes back := by
  induction front with
  | nil => exact splitSlashes_slash back
  | cons byte rest inductionHypothesis =>
    by_cases isSlash : byte = slash
    · subst isSlash
      rw [List.cons_append, splitSlashes_slash, splitSlashes_slash, inductionHypothesis,
        List.cons_append]
    · obtain ⟨piece, pieces, split⟩ := List.exists_cons_of_ne_nil (splitSlashes_ne_nil rest)
      have appended : splitSlashes (rest ++ slash :: back) =
          piece :: (pieces ++ splitSlashes back) := by
        rw [inductionHypothesis, split, List.cons_append]
      rw [List.cons_append, splitSlashes_cons isSlash appended, splitSlashes_cons isSlash split,
        List.cons_append]

theorem splitSlashes_of_not_mem {name : Name} (noSlash : slash ∉ name) :
    splitSlashes name = [name] := by
  induction name with
  | nil => rfl
  | cons byte rest inductionHypothesis =>
    rw [List.mem_cons, not_or] at noSlash
    exact splitSlashes_cons (Ne.symm noSlash.1) (inductionHypothesis noSlash.2)

theorem not_mem_of_mem_splitSlashes {path : Path} {piece : Name}
    (member : piece ∈ splitSlashes path) : slash ∉ piece := by
  induction path generalizing piece with
  | nil => simp_all [splitSlashes]
  | cons byte rest inductionHypothesis =>
    by_cases isSlash : byte = slash
    · subst isSlash
      rw [splitSlashes_slash] at member
      rcases List.mem_cons.mp member with rfl | member
      · exact List.not_mem_nil
      · exact inductionHypothesis member
    · obtain ⟨first, pieces, split⟩ := List.exists_cons_of_ne_nil (splitSlashes_ne_nil rest)
      rw [splitSlashes_cons isSlash split] at member
      rcases List.mem_cons.mp member with rfl | member
      · rw [List.mem_cons, not_or]
        exact ⟨Ne.symm isSlash, inductionHypothesis (split ▸ List.mem_cons_self)⟩
      · exact inductionHypothesis (split ▸ List.mem_cons_of_mem first member)

end Path

namespace FileSystem

theorem pieces_ne_nil (path : Path) : pieces path ≠ [] := Path.splitSlashes_ne_nil path

theorem not_mem_of_mem_pieces {path : Path} {piece : Name} (member : piece ∈ pieces path) :
    Path.slash ∉ piece :=
  Path.not_mem_of_mem_splitSlashes member

theorem pieces_eq_singleton_empty {path : Path} (single : pieces path = [[]]) : path = [] := by
  cases path with
  | nil => rfl
  | cons byte rest =>
    rw [pieces] at single
    by_cases isSlash : byte = Path.slash
    · rw [isSlash, Path.splitSlashes_slash, List.cons_eq_cons] at single
      exact absurd single.2 (Path.splitSlashes_ne_nil rest)
    · obtain ⟨piece, pieces, split⟩ := List.exists_cons_of_ne_nil (Path.splitSlashes_ne_nil rest)
      rw [Path.splitSlashes_cons isSlash split] at single
      cases single

theorem pieces_of_not_mem {name : Name} (noSlash : Path.slash ∉ name) : pieces name = [name] :=
  Path.splitSlashes_of_not_mem noSlash

theorem pieces_of_isEntryName {name : Name} (isName : isEntryName name = true) :
    pieces name = [name] := by
  obtain ⟨-, -, -, noSlash⟩ := isEntryName_iff.mp isName
  exact pieces_of_not_mem noSlash

theorem pieces_append_slash (front back : Path) :
    pieces (front ++ Path.slash :: back) = pieces front ++ pieces back :=
  Path.splitSlashes_append_slash front back

/-- Joining two paths puts their pieces one behind the other; an empty piece at the end of the
first one is lost. -/
theorem exists_pieces_join (base path : Path) (relative : path.isAbsolute = false) :
    ∃ front, (pieces base = front ∨ pieces base = front ++ [[]]) ∧
      pieces (base.join path) = front ++ pieces path := by
  unfold Path.join
  rw [if_neg (by simp [relative])]
  split
  next ending =>
    rcases ending with empty | slash
    · refine ⟨[], .inr ?_, ?_⟩
      · rw [List.isEmpty_iff.mp empty]
        rfl
      · rw [List.isEmpty_iff.mp empty, List.nil_append, List.nil_append]
    · obtain ⟨front, rfl⟩ := List.getLast?_eq_some_iff.mp slash
      refine ⟨pieces front, .inr (pieces_append_slash front []), ?_⟩
      rw [List.append_assoc, List.singleton_append, pieces_append_slash]
  next =>
    exact ⟨pieces base, .inl rfl, pieces_append_slash base path⟩

/-! ### Components -/

/-- Whether a piece of a path is a name, or two dots. -/
def isStep (piece : Name) : Bool := piece ≠ [] ∧ piece ≠ Path.here

theorem isStep_of_isEntryName {name : Name} (isName : isEntryName name = true) :
    isStep name = true := by
  obtain ⟨nonempty, notDot, -⟩ := isEntryName_iff.mp isName
  exact decide_eq_true ⟨nonempty, notDot⟩

theorem filter_isStep_pieces (path : Path) :
    ((pieces path).filter isStep).filter (fun name => name ≠ Path.top ∧ name ≠ Path.here) =
      (pieces path).filter isStep := by
  refine List.filter_eq_self.mpr fun piece member => ?_
  obtain ⟨pieceMember, step⟩ := List.mem_filter.mp member
  simp only [isStep, decide_eq_true_eq] at step ⊢
  refine ⟨?_, step.2⟩
  rintro rfl
  exact not_mem_of_mem_pieces pieceMember List.mem_cons_self

end FileSystem

namespace Path

open FileSystem

/-- What stands in front of the names of a path: the root, a single dot, or nothing. -/
def lead (path : Path) : List Name :=
  if path.isAbsolute then [top] else if (pieces path).head? = some here then [here] else []

theorem components_eq_filter (path : Path) :
    path.components = path.lead ++ (pieces path).filter isStep := by
  unfold components lead
  dsimp only
  split
  · rfl
  · rw [pieces]
    split <;> rfl

theorem namesIn_eq_filter (path : Path) : namesIn path = (pieces path).filter isStep := by
  have front : path.lead.filter (fun name => name ≠ top ∧ name ≠ here) = [] := by
    unfold lead
    split
    · rfl
    · split <;> rfl
  rw [namesIn, components_eq_filter, List.filter_append, front, filter_isStep_pieces,
    List.nil_append]

theorem components_eq (path : Path) : path.components = path.lead ++ namesIn path := by
  rw [components_eq_filter, namesIn_eq_filter]

/-! ### Joining -/

theorem isAbsolute_join (base path : Path) (relative : path.isAbsolute = false) :
    (base.join path).isAbsolute = base.isAbsolute := by
  unfold join
  rw [if_neg (by simp [relative])]
  cases base with
  | nil => simpa [isAbsolute] using relative
  | cons byte rest => split <;> rfl

/-- The pieces of a path below a base are the names of the base, with pieces between them that
lead nowhere, and the pieces of the path. -/
theorem exists_front_join (base path : Path) (relative : path.isAbsolute = false) :
    ∃ front, front.filter isStep = namesIn base ∧
      pieces (base.join path) = front ++ pieces path := by
  obtain ⟨front, before, joined⟩ := exists_pieces_join base path relative
  refine ⟨front, ?_, joined⟩
  rw [namesIn_eq_filter]
  rcases before with equal | equal
  · rw [equal]
  · rw [equal, List.filter_append]
    exact (List.append_nil _).symm

theorem namesIn_join (base path : Path) (relative : path.isAbsolute = false) :
    namesIn (base.join path) = namesIn base ++ namesIn path := by
  obtain ⟨front, names, joined⟩ := exists_front_join base path relative
  rw [namesIn_eq_filter, joined, List.filter_append, names, ← namesIn_eq_filter]

theorem join_ne_empty {base : Path} (path : Path) (nonempty : base ≠ []) : base.join path ≠ [] := by
  unfold join
  split
  next absolute =>
    rintro rfl
    cases absolute
  · split
    · exact fun empty => nonempty (List.append_eq_nil_iff.mp empty).1
    · exact fun empty => nonempty (List.append_eq_nil_iff.mp empty).1

theorem lead_join (base path : Path) (relative : path.isAbsolute = false) (nonempty : base ≠ []) :
    (base.join path).lead = base.lead := by
  obtain ⟨front, before, joined⟩ := exists_pieces_join base path relative
  have start : (pieces (base.join path)).head? = (pieces base).head? := by
    cases front with
    | nil =>
      rcases before with equal | equal
      · exact absurd equal (pieces_ne_nil base)
      · exact absurd (pieces_eq_singleton_empty equal) nonempty
    | cons piece rest => rcases before with equal | equal <;> rw [joined, equal] <;> rfl
  rw [lead, lead, isAbsolute_join base path relative, start]

/-- The components of a path below a base are those of the base and the names of the path. -/
theorem components_join (base path : Path) (relative : path.isAbsolute = false)
    (nonempty : base ≠ []) :
    (base.join path).components = base.components ++ namesIn path := by
  rw [components_eq, components_eq, lead_join base path relative nonempty,
    namesIn_join base path relative, List.append_assoc]

theorem isAbsolute_of_isEntryName {name : Name} (isName : isEntryName name = true) :
    isAbsolute name = false := by
  obtain ⟨-, -, -, noSlash⟩ := isEntryName_iff.mp isName
  rw [isAbsolute, beq_eq_false_iff_ne]
  exact fun slash => noSlash (List.mem_of_mem_head? slash)

theorem namesIn_of_isEntryName {name : Name} (isName : isEntryName name = true) :
    namesIn name = [name] := by
  rw [namesIn_eq_filter, pieces_of_isEntryName isName]
  exact List.filter_cons_of_pos (isStep_of_isEntryName isName)

theorem components_of_isEntryName {name : Name} (isName : isEntryName name = true) :
    components name = [name] := by
  rw [components_eq, namesIn_of_isEntryName isName, lead, isAbsolute_of_isEntryName isName,
    pieces_of_isEntryName isName]
  obtain ⟨-, notDot, -⟩ := isEntryName_iff.mp isName
  simp [notDot]

theorem components_join_name (base : Path) {name : Name} (isName : isEntryName name = true) :
    (base.join name).components = base.components ++ [name] := by
  by_cases nonempty : base = []
  · subst nonempty
    have joined : join [] name = name := by
      rw [join, if_neg (by simp [isAbsolute_of_isEntryName isName]), if_pos (.inl rfl),
        List.nil_append]
    rw [joined, components_of_isEntryName isName]
    rfl
  · rw [components_join base name (isAbsolute_of_isEntryName isName) nonempty,
      namesIn_of_isEntryName isName]

theorem join_name_ne_empty (base : Path) {name : Name} (isName : isEntryName name = true) :
    base.join name ≠ [] := by
  intro empty
  have split := components_join_name base isName
  rw [empty] at split
  exact List.concat_ne_nil _ _ split.symm

/-! ### Names and extensions -/

theorem fileName?_of_components {path : Path} {front : List Name} {name : Name}
    (components : path.components = front ++ [name]) (isName : isEntryName name = true) :
    path.fileName? = some name := by
  have notRoot : name ≠ top := by
    rintro rfl
    exact absurd isName (by decide)
  obtain ⟨-, notDot, notAbove, -⟩ := isEntryName_iff.mp isName
  rw [fileName?, components, List.getLast?_concat, Option.filter_some, if_pos]
  exact decide_eq_true ⟨notRoot, notDot, notAbove⟩

/-- A path has the language of its last name. -/
theorem ofPath?_of_components {path : Path} {front : List Name} {name : Name}
    (components : path.components = front ++ [name]) (isName : isEntryName name = true) :
    Language.ofPath? path = Language.ofPath? name := by
  have alone : Path.components name = [] ++ [name] := components_of_isEntryName isName
  rw [Language.ofPath?, Language.ofPath?, extension?, extension?,
    fileName?_of_components components isName, fileName?_of_components alone isName]

/-- A path has a language exactly if its extension is a text, and one of the language. -/
theorem ofPath?_eq_some_iff {path : Path} {language : Language} :
    Language.ofPath? path = some language ↔
      ∃ extension : String, path.extension? = some (ofString extension) ∧
        Language.ofExtension? extension = some language := by
  simp only [Language.ofPath?, Option.bind_eq_some_iff, Text.decode?_eq_some_iff]
  constructor
  · rintro ⟨text, ⟨bytes, found, rfl⟩, known⟩
    exact ⟨String.ofList text, by rw [ofString, String.toList_ofList, found], known⟩
  · rintro ⟨extension, found, known⟩
    exact ⟨extension.toList, ⟨_, found, rfl⟩, by rwa [String.ofList_toList]⟩

theorem ofPath?_eq_python {path : Path} (extension : path.extension? = some (ofString "py")) :
    Language.ofPath? path = some .python :=
  ofPath?_eq_some_iff.mpr ⟨"py", extension, by decide⟩

theorem ofPath?_join_name (base : Path) {name : Name} (isName : isEntryName name = true) :
    Language.ofPath? (base.join name) = Language.ofPath? name :=
  ofPath?_of_components (components_join_name base isName) isName

/-! ### Paths as they are shown -/

theorem stripComponents?_append (base rest : List Name) :
    stripComponents? base (base ++ rest) = some rest := by
  induction base with
  | nil => rfl
  | cons component base inductionHypothesis =>
    rw [List.cons_append, stripComponents?, if_pos rfl, inductionHypothesis]

/-- A path below a base is shown by the names below the base. -/
theorem display_of_components {base path : Path} {rest : List Name}
    (components : path.components = base.components ++ rest) (nonempty : rest ≠ []) :
    display base path = showComponents rest := by
  unfold display
  rw [components, stripComponents?_append]
  exact if_neg (by simpa using nonempty)

theorem joinComponents_cons_cons (name next : Name) (rest : List Name) :
    joinComponents (name :: next :: rest) = name ++ slash :: joinComponents (next :: rest) := by
  simp [joinComponents]

theorem showComponents_singleton (name : Name) : showComponents [name] = Text.shown name := by
  rw [showComponents, List.map_singleton, String.intercalate_singleton]

theorem showComponents_cons_cons (name next : Name) (rest : List Name) :
    showComponents (name :: next :: rest) =
      Text.shown name ++ "/" ++ showComponents (next :: rest) := by
  rw [showComponents, showComponents, List.map_cons, List.map_cons, String.intercalate_cons_cons]

theorem pieces_joinComponents {names : List Name} (nonempty : names ≠ [])
    (noSlash : ∀ name ∈ names, slash ∉ name) : pieces (joinComponents names) = names := by
  induction names with
  | nil => exact absurd rfl nonempty
  | cons name rest inductionHypothesis =>
    have single := pieces_of_not_mem (noSlash name List.mem_cons_self)
    cases rest with
    | nil => rw [joinComponents, List.intercalate_singleton, single]
    | cons next rest =>
      have below := inductionHypothesis (List.cons_ne_nil next rest)
        fun other member => noSlash other (List.mem_cons_of_mem name member)
      rw [joinComponents_cons_cons, pieces_append_slash, single, below, List.singleton_append]

/-- The bytes of what is shown for a name. They are the name if it is a text. -/
def reread (name : Name) : Name := Text.encode (Text.lossy name)

theorem reread_eq_iff {name : Name} : reread name = name ↔ Text.IsText name :=
  Text.encode_lossy_iff

theorem slash_not_mem_reread {name : Name} (noSlash : slash ∉ name) : slash ∉ reread name :=
  fun member => noSlash (Text.mem_of_mem_encode_lossy (by decide) member)

theorem ofString_append (one other : String) :
    ofString (one ++ other) = ofString one ++ ofString other := by
  rw [ofString, String.toList_append]
  exact List.flatMap_append

theorem ofString_shown (name : Name) : ofString (Text.shown name) = reread name := by
  rw [ofString, Text.toList_shown, reread]

/-- What is shown for some components, taken as a path. -/
theorem ofString_showComponents (names : List Name) :
    ofString (showComponents names) = joinComponents (names.map reread) := by
  induction names with
  | nil => rfl
  | cons name rest inductionHypothesis =>
    cases rest with
    | nil =>
      rw [showComponents_singleton, joinComponents, List.map_singleton,
        List.intercalate_singleton, ofString_shown]
    | cons next rest =>
      rw [showComponents_cons_cons, ofString_append, ofString_append, inductionHypothesis,
        ofString_shown, List.map_cons, List.map_cons, List.map_cons, joinComponents_cons_cons,
        List.append_assoc]
      rfl

theorem lossy_subset_showComponents {names : List Name} {name : Name} (member : name ∈ names) :
    Text.lossy name ⊆ (showComponents names).toList := by
  induction names with
  | nil => exact absurd member List.not_mem_nil
  | cons first rest inductionHypothesis =>
    cases rest with
    | nil =>
      rw [List.mem_singleton.mp member, showComponents_singleton, Text.toList_shown]
      exact List.Subset.refl _
    | cons next rest =>
      rw [showComponents_cons_cons, String.toList_append, String.toList_append, Text.toList_shown]
      rcases List.mem_cons.mp member with rfl | later
      · exact List.Subset.trans (List.subset_append_left _ _) (List.subset_append_left _ _)
      · exact List.Subset.trans (inductionHypothesis later) (List.subset_append_right _ _)

/-- Names that are shown without a replacement are texts. -/
theorem texts_of_replacement_not_mem {names : List Name}
    (complete : Text.replacement ∉ (showComponents names).toList) :
    ∀ name ∈ names, Text.IsText name := fun _ member =>
  Text.isText_of_replacement_not_mem fun replaced =>
    complete (lossy_subset_showComponents member replaced)

/-- What is shown for some names is a path with as many names, as they are shown. -/
theorem pieces_showComponents {names : List Name} (nonempty : names ≠ [])
    (noSlash : ∀ name ∈ names, slash ∉ name) :
    pieces (ofString (showComponents names)) = names.map reread := by
  rw [ofString_showComponents]
  refine pieces_joinComponents (by simpa using nonempty) fun name member => ?_
  obtain ⟨original, inNames, rfl⟩ := List.mem_map.mp member
  exact slash_not_mem_reread (noSlash original inNames)

theorem map_reread_eq_iff {names : List Name} :
    names.map reread = names ↔ ∀ name ∈ names, Text.IsText name := by
  rw [← List.map_id names, List.map_map, List.map_inj_left, List.map_id]
  exact forall₂_congr fun name _ => reread_eq_iff

/-- What is shown for some names is the path with these names exactly if they are texts. -/
theorem ofString_showComponents_eq_iff {names : List Name} (nonempty : names ≠ [])
    (noSlash : ∀ name ∈ names, slash ∉ name) :
    ofString (showComponents names) = joinComponents names ↔ ∀ name ∈ names, Text.IsText name := by
  rw [← map_reread_eq_iff]
  constructor
  · intro same
    rw [← pieces_showComponents nonempty noSlash, same, pieces_joinComponents nonempty noSlash]
  · intro same
    rw [ofString_showComponents, same]

/-- Names that are texts and have no slash in them are shown by a path of their own. -/
theorem showComponents_injective {one other : List Name}
    (oneNonempty : one ≠ []) (otherNonempty : other ≠ [])
    (oneNoSlash : ∀ name ∈ one, slash ∉ name) (otherNoSlash : ∀ name ∈ other, slash ∉ name)
    (oneTexts : ∀ name ∈ one, Text.IsText name) (otherTexts : ∀ name ∈ other, Text.IsText name)
    (alike : showComponents one = showComponents other) : one = other := by
  rw [← map_reread_eq_iff.mpr oneTexts, ← pieces_showComponents oneNonempty oneNoSlash, alike,
    pieces_showComponents otherNonempty otherNoSlash, map_reread_eq_iff.mpr otherTexts]

end Path

namespace Walk

open FileSystem

theorem pathOf_cons (root : Path) (name : Name) (route : Route) :
    pathOf root (name :: route) = pathOf (root.join name) route := rfl

theorem pathOf_concat (root : Path) (route : Route) (name : Name) :
    pathOf root (route ++ [name]) = (pathOf root route).join name := by
  rw [pathOf, List.foldl_append]
  rfl

theorem isAbsolute_pathOf (root : Path) {route : Route}
    (named : ∀ name ∈ route, isEntryName name = true) :
    (pathOf root route).isAbsolute = root.isAbsolute := by
  induction route generalizing root with
  | nil => rfl
  | cons name route inductionHypothesis =>
    rw [pathOf_cons, inductionHypothesis _ fun other member => named other (.tail _ member),
      Path.isAbsolute_join _ _ (Path.isAbsolute_of_isEntryName (named name (.head _)))]

theorem components_pathOf (root : Path) {route : Route}
    (named : ∀ name ∈ route, isEntryName name = true) :
    (pathOf root route).components = root.components ++ route := by
  induction route generalizing root with
  | nil => exact (List.append_nil _).symm
  | cons name route inductionHypothesis =>
    rw [pathOf_cons, inductionHypothesis _ fun other member => named other (.tail _ member),
      Path.components_join_name root (named name (.head _)), List.append_assoc]
    rfl

theorem namesIn_pathOf (root : Path) {route : Route}
    (named : ∀ name ∈ route, isEntryName name = true) :
    namesIn (pathOf root route) = namesIn root ++ route := by
  induction route generalizing root with
  | nil => exact (List.append_nil _).symm
  | cons name route inductionHypothesis =>
    have isName := named name (.head _)
    rw [pathOf_cons, inductionHypothesis _ fun other member => named other (.tail _ member),
      Path.namesIn_join root name (Path.isAbsolute_of_isEntryName isName),
      Path.namesIn_of_isEntryName isName, List.append_assoc]
    rfl

/-- Different routes give different paths. -/
theorem pathOf_injective (root : Path) {first second : Route}
    (firstNamed : ∀ name ∈ first, isEntryName name = true)
    (secondNamed : ∀ name ∈ second, isEntryName name = true)
    (same : pathOf root first = pathOf root second) : first = second := by
  have components := congrArg Path.components same
  rw [components_pathOf root firstNamed, components_pathOf root secondNamed] at components
  exact List.append_cancel_left components

end Walk

end CodeAtlas
