/-
Paths as they are shown, taken as paths again. A path below a base is shown by the components
below the base, and below the base these lead back to the same components, whatever repeated
slashes and single dots the two paths are written with, exactly if they are texts. Below an
absolute base the file that such a shown path leads to is therefore the one that the path itself
leads to.

One way to write a path is not forgotten by the file system: a path that ends in a slash, or in a
slash and a single dot, has to be a directory. There is no file at such a path, although the path
that is shown for it may have one.
-/
import CodeAtlas.Proofs.Extract.Lookup
import CodeAtlas.Proofs.Repository.RelativeRoot

namespace CodeAtlas

open FileSystem

namespace Path

/-! ### Components with slashes between them -/

/-- A path whose first piece is empty starts at the root, or is empty itself. -/
theorem isAbsolute_of_pieces {path : Path} {rest : List Name} (nonempty : path ≠ [])
    (split : pieces path = [] :: rest) : path.isAbsolute = true := by
  cases path with
  | nil => exact absurd rfl nonempty
  | cons byte more =>
    by_cases isSlash : byte = slash
    · rw [isSlash]
      rfl
    · obtain ⟨piece, others, splitMore⟩ := List.exists_cons_of_ne_nil (splitSlashes_ne_nil more)
      rw [pieces, splitSlashes_cons isSlash splitMore] at split
      exact absurd (List.cons.inj split).1 (List.cons_ne_nil _ _)

theorem pieces_of_isAbsolute {path : Path} (absolute : path.isAbsolute = true) :
    ∃ rest, pieces path = [] :: rest := by
  rw [isAbsolute, beq_iff_eq] at absolute
  obtain ⟨rest, rfl⟩ := List.head?_eq_some_iff.mp absolute
  exact ⟨_, splitSlashes_slash rest⟩

theorem isAbsolute_eq_false_of_pieces {path : Path} {piece : Name} {rest : List Name}
    (split : pieces path = piece :: rest) (nonempty : piece ≠ []) : path.isAbsolute = false := by
  refine Bool.eq_false_iff.mpr fun absolute => ?_
  obtain ⟨others, same⟩ := pieces_of_isAbsolute absolute
  exact nonempty (List.cons.inj (split.symm.trans same)).1

theorem lead_cases (path : Path) : path.lead = [top] ∨ path.lead = [here] ∨ path.lead = [] := by
  unfold lead
  split
  · exact .inl rfl
  · split
    · exact .inr (.inl rfl)
    · exact .inr (.inr rfl)

theorem components_ne_nil {path : Path} (nonempty : path ≠ []) : path.components ≠ [] := by
  rw [components_eq_filter]
  intro nothing
  obtain ⟨noLead, noSteps⟩ := List.append_eq_nil_iff.mp nothing
  obtain ⟨piece, rest, split⟩ := List.exists_cons_of_ne_nil (pieces_ne_nil path)
  have noStep : isStep piece = false := by
    have := List.filter_eq_nil_iff.mp noSteps piece (split ▸ List.mem_cons_self)
    simpa using this
  have blank : piece = [] ∨ piece = here := by
    simpa [isStep, Classical.or_iff_not_imp_left] using noStep
  rcases blank with rfl | rfl
  · simp [lead, isAbsolute_of_pieces nonempty split] at noLead
  · have relative := isAbsolute_eq_false_of_pieces split (by decide)
    simp [lead, relative, split] at noLead

theorem noSlash_of_mem_namesIn {path : Path} {name : Name} (member : name ∈ namesIn path) :
    slash ∉ name := by
  rw [namesIn_eq_filter] at member
  exact not_mem_of_mem_pieces (List.mem_filter.mp member).1

theorem isStep_of_mem_namesIn {path : Path} {name : Name} (member : name ∈ namesIn path) :
    isStep name = true := by
  rw [namesIn_eq_filter] at member
  exact (List.mem_filter.mp member).2

theorem isAbsolute_of_components {path : Path} {rest : List Name}
    (root : path.components = top :: rest) : path.isAbsolute = true := by
  rw [components_eq] at root
  unfold lead at root
  split at root
  next absolute => exact absolute
  · split at root
    · exact absurd (List.cons.inj root).1 (by decide)
    · have member : top ∈ namesIn path := by
        rw [← List.nil_append (namesIn path), root]
        exact List.mem_cons_self
      exact absurd (noSlash_of_mem_namesIn member) (by decide)

/-- Components of which the first is not empty are read back from the path that they make, where
a single dot counts in front only. -/
theorem components_joinComponents {part : Name} {parts : List Name} (nonempty : part ≠ [])
    (noSlash : ∀ name ∈ part :: parts, slash ∉ name) :
    components (joinComponents (part :: parts)) =
      (if part = here then [here] else []) ++ (part :: parts).filter isStep := by
  have split := pieces_joinComponents (List.cons_ne_nil part parts) noSlash
  rw [components_eq_filter, lead, isAbsolute_eq_false_of_pieces split nonempty, split]
  simp

/-- The root in front of names is read back with another slash behind it. -/
theorem components_joinComponents_root {names : List Name}
    (noSlash : ∀ name ∈ names, slash ∉ name) :
    components (joinComponents (top :: names)) = top :: names.filter isStep := by
  cases names with
  | nil => rfl
  | cons name rest =>
    have split : pieces (joinComponents (top :: name :: rest)) = [[], []] ++ name :: rest := by
      rw [joinComponents_cons_cons, pieces_append_slash,
        pieces_joinComponents (List.cons_ne_nil _ _) noSlash]
      rfl
    have rooted : isAbsolute (joinComponents (top :: name :: rest)) = true := by
      rw [joinComponents_cons_cons]
      rfl
    rw [components_eq_filter, lead, if_pos rooted, split, List.filter_append]
    rfl

/-- What may stand in front of names, with slashes between them, makes a path with these
components. -/
theorem components_joinComponents_lead {front names : List Name}
    (isLead : front = [top] ∨ front = [here] ∨ front = []) (someComponents : front ++ names ≠ [])
    (noSlash : ∀ name ∈ names, slash ∉ name) (areSteps : ∀ name ∈ names, isStep name = true) :
    components (joinComponents (front ++ names)) = front ++ names := by
  have steps : names.filter isStep = names := List.filter_eq_self.mpr areSteps
  rcases isLead with rfl | rfl | rfl
  · rw [List.singleton_append, components_joinComponents_root noSlash, steps]
  · have dotNoSlash : ∀ name ∈ here :: names, slash ∉ name :=
      List.forall_mem_cons.mpr ⟨by decide, noSlash⟩
    rw [List.singleton_append, components_joinComponents (by decide) dotNoSlash, if_pos rfl,
      List.filter_cons_of_neg (by decide), steps]
    rfl
  · rw [List.nil_append] at someComponents ⊢
    obtain ⟨name, rest, rfl⟩ := List.exists_cons_of_ne_nil someComponents
    have step := areSteps name List.mem_cons_self
    simp only [isStep, decide_eq_true_eq] at step
    rw [components_joinComponents step.1 noSlash, if_neg step.2, steps, List.nil_append]

theorem join_empty (path : Path) : join [] path = path := by
  unfold join
  split
  · rfl
  · rw [if_pos (.inl rfl), List.nil_append]

/-! ### Paths below a base -/

theorem isStep_reread {name : Name} (step : isStep name = true) : isStep (reread name) = true := by
  simp only [isStep, decide_eq_true_eq] at step ⊢
  have readBack : Text.lossy (reread name) = Text.lossy name := Text.lossy_encode _
  refine ⟨fun empty => step.1 ?_, fun dot => step.2 ?_⟩
  · rw [empty, Text.lossy_nil] at readBack
    exact Text.lossy_eq_nil_iff.mp readBack.symm
  · have single : Text.lossy here = [Char.ofNat 0x2E] := Text.lossy_encode ['.']
    have isText : Text.IsText name := by
      refine Text.isText_of_replacement_not_mem ?_
      rw [← readBack, dot, single]
      decide
    rw [← reread_eq_iff.mpr isText, dot]

theorem map_reread_lead (path : Path) : path.lead.map reread = path.lead := by
  refine map_reread_eq_iff.mpr fun name member => ?_
  rcases lead_cases path with root | dot | none
  · rw [root] at member
    exact ⟨['/'], (List.mem_singleton.mp member).symm⟩
  · rw [dot] at member
    exact ⟨['.'], (List.mem_singleton.mp member).symm⟩
  · rw [none] at member
    exact absurd member List.not_mem_nil

section Below

variable {base path : Path} {rest : List Name}
  (below : path.components = base.components ++ rest)
include below

/-- What a path has below a base are names, as the base has the root or a first dot already. -/
theorem suffix_namesIn (nonempty : base ≠ []) : rest <:+ namesIn path := by
  obtain ⟨first, others, split⟩ := List.exists_cons_of_ne_nil (components_ne_nil nonempty)
  rw [components_eq path, split] at below
  rcases lead_cases path with root | dot | none
  · rw [root, List.singleton_append] at below
    exact ⟨others, (List.cons.inj below).2.symm⟩
  · rw [dot, List.singleton_append] at below
    exact ⟨others, (List.cons.inj below).2.symm⟩
  · rw [none, List.nil_append] at below
    exact ⟨first :: others, below.symm⟩

theorem namesIn_of_below (nonempty : base ≠ []) : namesIn path = namesIn base ++ rest := by
  have names : rest.filter (fun name => name ≠ top ∧ name ≠ here) = rest := by
    refine List.filter_eq_self.mpr fun name member => ?_
    exact (List.mem_filter.mp ((suffix_namesIn below nonempty).subset member)).2
  rw [namesIn, below, List.filter_append, names, ← namesIn]

theorem isStep_of_mem_map_reread (nonempty : base ≠ []) :
    ∀ name ∈ rest.map reread, isStep name = true := by
  intro name member
  obtain ⟨original, inRest, rfl⟩ := List.mem_map.mp member
  exact isStep_reread (isStep_of_mem_namesIn ((suffix_namesIn below nonempty).subset inRest))

variable (strictly : rest ≠ [])
include strictly

theorem pieces_display (nonempty : base ≠ []) :
    pieces (display base path) = rest.map reread := by
  rw [display_of_components below strictly]
  exact pieces_showComponents strictly fun name member =>
    noSlash_of_mem_namesIn ((suffix_namesIn below nonempty).subset member)

theorem isAbsolute_display (nonempty : base ≠ []) : isAbsolute (display base path) = false := by
  obtain ⟨name, others, rfl⟩ := List.exists_cons_of_ne_nil strictly
  have step := isStep_of_mem_map_reread below nonempty (reread name) List.mem_cons_self
  refine isAbsolute_eq_false_of_pieces (pieces_display below strictly nonempty) fun empty => ?_
  rw [empty] at step
  cases step

/-- A path that is shown from a base has, below the base, the components of the path as they are
shown. -/
theorem components_join_display :
    (base.join (display base path)).components = base.components ++ rest.map reread := by
  by_cases nonempty : base = []
  · subst nonempty
    have same : path.lead ++ namesIn path = rest := (components_eq path).symm.trans below
    have shown : rest.map reread = path.lead ++ (namesIn path).map reread := by
      rw [← same, List.map_append, map_reread_lead]
    rw [join_empty, display_of_components below strictly, ofString_showComponents, shown]
    refine components_joinComponents_lead (lead_cases path) ?_ (fun name member => ?_)
      fun name member => ?_
    · rw [← shown]
      simpa using strictly
    · obtain ⟨original, inPath, rfl⟩ := List.mem_map.mp member
      exact slash_not_mem_reread (noSlash_of_mem_namesIn inPath)
    · obtain ⟨original, inPath, rfl⟩ := List.mem_map.mp member
      exact isStep_reread (isStep_of_mem_namesIn inPath)
  · have names : namesIn (display base path) = rest.map reread := by
      rw [namesIn_eq_filter, pieces_display below strictly nonempty]
      exact List.filter_eq_self.mpr (isStep_of_mem_map_reread below nonempty)
    rw [components_join base _ (isAbsolute_display below strictly nonempty) nonempty, names]

end Below

theorem display_congr (base : Path) {one other : Path}
    (same : one.components = other.components) : display base one = display base other := by
  rw [display, display, fileName?, fileName?, same]

theorem ofPath?_congr {one other : Path} (same : one.components = other.components) :
    Language.ofPath? one = Language.ofPath? other := by
  rw [Language.ofPath?, Language.ofPath?, extension?, extension?, fileName?, fileName?, same]

/-- Whether the last piece of a path is a name, or two dots. If it is not, the path ends in a
slash or in a single dot. -/
def endsInStep (path : Path) : Bool := (pieces path).getLast?.any isStep

end Path

/-! ### Files below a base -/

namespace FileSystem

variable (system : FileSystem) {path : Path}

/-- A path that does not end in a slash or in a single dot leads where its names lead. -/
theorem locate_of_endsInStep (nonempty : path ≠ []) (ends : path.endsInStep = true) :
    system.locate path =
      system.follow system.links (startFrom path system.current) (namesIn path) := by
  rw [Path.endsInStep, Option.any_eq_true] at ends
  obtain ⟨last, isLast, step⟩ := ends
  obtain ⟨front, split⟩ := List.getLast?_eq_some_iff.mp isLast
  rw [system.locate_of_ne_empty nonempty, Path.namesIn_eq_filter, split, List.filter_append,
    List.filter_cons_of_pos step]
  exact system.sameWay_filter_isStep front last [] _ _

/-- A path that ends in a slash or in a single dot leads to directories only. -/
theorem file?_of_not_endsInStep (ends : path.endsInStep = false) : system.file? path = none := by
  obtain ⟨last, isLast⟩ := Option.ne_none_iff_exists'.mp
    (mt List.getLast?_eq_none_iff.mp (pieces_ne_nil path))
  obtain ⟨front, split⟩ := List.getLast?_eq_some_iff.mp isLast
  have blank : last = [] ∨ last = Path.here := by
    simpa [Path.endsInStep, isLast, isStep, Classical.or_iff_not_imp_left] using ends
  rw [file?]
  cases located : system.locate? path with
  | none => rfl
  | some location =>
    obtain ⟨-, found⟩ := system.locate?_eq_some_iff.mp located
    rw [LeadsTo, split] at found
    obtain ⟨middle, -, stays⟩ := follow_append_eq_ok found
    cases directory : system.hasDirectory middle with
    | false =>
      rw [system.follow_outside _ _ _ directory] at stays
      cases stays
    | true =>
      rw [system.follow_blank _ _ directory blank, system.follow_nil] at stays
      cases stays
      rw [Option.bind_some, fileAt?, system.hasDirectory_iff_entry?.mp directory]

end FileSystem

namespace Repository

variable (system : FileSystem) (settings : Settings) {base path : Path}

theorem fileFacts?_of_not_endsInStep (absolute : path.isAbsolute = true)
    (ends : path.endsInStep = false) :
    (Repository.mk base settings).fileFacts? system path = none := by
  rw [fileFacts?_of_isAbsolute _ system absolute, ParsedFile.load?,
    system.file?_of_not_endsInStep ends]
  cases Language.ofPath? path <;> rfl

/-- Below an absolute base, the facts about a file whose names are texts are those about the file at
the path that is shown for it. -/
theorem fileFacts?_display {rest : List Name}
    (below : path.components = base.components ++ rest) (strictly : rest ≠ [])
    (texts : ∀ name ∈ rest, Text.IsText name) (absolute : base.isAbsolute = true)
    (ends : path.endsInStep = true) :
    (Repository.mk base settings).fileFacts? system (Path.display base path) =
      (Repository.mk base settings).fileFacts? system path := by
  have nonempty : base ≠ [] := by
    rintro rfl
    cases absolute
  have absolutePath : path.isAbsolute = true := by
    rw [Path.components_eq base, Path.lead, if_pos absolute] at below
    exact Path.isAbsolute_of_components below
  have nonemptyPath : path ≠ [] := by
    rintro rfl
    cases absolutePath
  have readBack := Path.map_reread_eq_iff.mpr texts
  have same : (base.join (Path.display base path)).components = path.components := by
    rw [Path.components_join_display below strictly, readBack, below]
  have place : system.locate (base.join (Path.display base path)) = system.locate path := by
    rw [system.locate_join nonempty (Path.isAbsolute_display below strictly nonempty),
      Path.pieces_display below strictly nonempty, readBack, ← Path.namesIn_of_below below nonempty,
      system.locate_of_endsInStep nonemptyPath ends, startFrom, startFrom, if_pos absolute,
      if_pos absolutePath]
  rw [fileFacts?_of_isAbsolute _ system absolutePath, fileFacts?, display, display]
  dsimp only
  rw [Path.display_congr base same, ParsedFile.load?_congr (Path.ofPath?_congr same) place]

end Repository

/-- A path with more components than a base, those of the base in front, is shown by components
that lead back to it below the base exactly if they are texts. If so and the base is absolute, the
path and the path that is shown for it have the same facts, unless the path ends in a slash or in a
single dot; then there are no facts about a file at the path itself. -/
theorem shown_path_leads_back (base path : Path) (below : base.components <+: path.components)
    (strictly : base.components ≠ path.components) :
    ∃ rest, path.components = base.components ++ rest ∧
      ((base.join (Path.display base path)).components = path.components ↔
        ∀ name ∈ rest, Text.IsText name) ∧
      (base.isAbsolute = true → ∀ (system : FileSystem) (settings : Settings),
        (path.endsInStep = true → (∀ name ∈ rest, Text.IsText name) →
          (Repository.mk base settings).fileFacts? system (Path.display base path) =
            (Repository.mk base settings).fileFacts? system path) ∧
        (path.endsInStep = false →
          (Repository.mk base settings).fileFacts? system path = none)) := by
  obtain ⟨rest, split⟩ := below
  have nonempty : rest ≠ [] := by
    rintro rfl
    exact strictly ((List.append_nil _).symm.trans split)
  refine ⟨rest, split.symm, ?_, fun absolute system settings => ⟨fun ends texts => ?_, ?_⟩⟩
  · rw [Path.components_join_display split.symm nonempty, ← split, List.append_cancel_left_eq,
      Path.map_reread_eq_iff]
  · exact Repository.fileFacts?_display system settings split.symm nonempty texts absolute ends
  · have absolutePath : path.isAbsolute = true := by
      rw [Path.components_eq base, Path.lead, if_pos absolute] at split
      exact Path.isAbsolute_of_components split.symm
    exact Repository.fileFacts?_of_not_endsInStep system settings absolutePath

/-- A module of a directory, with the two paths written in different ways. -/
theorem moduleInDirectory_shown_path_leads_back :
    Path.components "/./repo/" <+: Path.components "//repo/./a.py" ∧
      Path.components "/./repo/" ≠ Path.components "//repo/./a.py" ∧
      Path.isAbsolute "/./repo/" = true ∧ Path.endsInStep "//repo/./a.py" = true ∧
      Path.display "/./repo/" "//repo/./a.py" = "a.py" ∧
      (Path.join "/./repo/" "a.py").components = Path.components "//repo/./a.py" ∧
      (Repository.mk "/./repo/" {}).fileFacts? moduleInDirectory "a.py" =
        (Repository.mk "/./repo/" {}).fileFacts? moduleInDirectory "//repo/./a.py" := by
  have below : Path.components "/./repo/" <+: Path.components "//repo/./a.py" := by decide
  have strictly : Path.components "/./repo/" ≠ Path.components "//repo/./a.py" := by decide
  have shown : Path.display "/./repo/" "//repo/./a.py" = "a.py" := by decide +kernel
  obtain ⟨rest, split, components, facts⟩ :=
    shown_path_leads_back "/./repo/" "//repo/./a.py" below strictly
  have whole : Path.components "//repo/./a.py" =
      Path.components "/./repo/" ++ [("a.py" : Name)] := by decide
  have texts : ∀ name ∈ rest, Text.IsText name := by
    rw [List.append_cancel_left (split.symm.trans whole)]
    exact List.forall_mem_singleton.mpr (Text.isText_encode _)
  rw [shown] at components facts
  exact ⟨below, strictly, rfl, by decide, shown, components.mpr texts,
    (facts rfl _ _).1 (by decide) texts⟩

/-- With a slash at its end, the path of a module has no facts, and the path that is shown for it
has some. What is shown for a name that is no text leads elsewhere. -/
theorem threeModules_slash_loses_facts :
    (Path.components "/" <+: Path.components "/a.py/" ∧
      Path.components "/" ≠ Path.components "/a.py/" ∧ Path.isAbsolute "/" = true ∧
      (Repository.mk "/" {}).fileFacts? threeModules (Path.display "/" "/a.py/") ≠
        (Repository.mk "/" {}).fileFacts? threeModules "/a.py/") ∧
    (Path.components "/" <+: (Path.join "/" (brokenName 0xFF)).components ∧
      Path.components "/" ≠ (Path.join "/" (brokenName 0xFF)).components ∧
      (Path.join "/" (Path.display "/" (Path.join "/" (brokenName 0xFF)))).components ≠
        (Path.join "/" (brokenName 0xFF)).components) := by
  refine ⟨⟨by decide, by decide, rfl, ?_⟩, by decide, by decide, by decide +kernel⟩
  have shown : Path.display "/" "/a.py/" = "a.py" := by decide +kernel
  have joined : Path.join "/" "a.py" = "/a.py" := by decide
  have nothing : (Repository.mk "/" {}).fileFacts? threeModules "/a.py/" = none :=
    Repository.fileFacts?_of_not_endsInStep _ _ rfl (by decide)
  have facts : (Repository.mk "/" {}).fileFacts? threeModules "a.py" = some callingFacts := by
    have calling : threeModules.entry? ([] ++ [("a.py" : Name)]) = some (.file callingModule) := rfl
    rw [← fileFacts?_calling calling, Repository.fileFacts?, joined,
      Repository.fileFacts?_of_isAbsolute _ _ (by decide)]
  rw [shown, nothing, facts]
  exact Option.some_ne_none _

end CodeAtlas
