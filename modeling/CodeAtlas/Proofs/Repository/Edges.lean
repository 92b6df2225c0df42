/-
The edges of an atlas and its files. An edge holds no more than the keys of two functions and the
paths of two files. In an atlas with an absolute root these can be followed back: each path is
that of a file, the keys are made of these paths and of names, and the names are those of a
function of the one file and of what it calls, defined in the other file and in no file after it.
This rests on all files being extracted from a tree. That there is one file only with a path rests
on the names of the files that are shown by it being texts.
-/
import CodeAtlas.Proofs.CallGraph
import CodeAtlas.Proofs.Repository.Records

namespace CodeAtlas

open Walk

/-- An edge stands for a call between two files: the files have its paths, and differ; a function of
the first calls a name, other than its own, that the second defines and no file after it; and the
keys of the edge are made of these paths and names. -/
structure CallEdge.Joins (files : List FileFacts) (edge : CallEdge) (source target : FileFacts)
    (caller : FunctionFacts) (callee : String) : Prop where
  source_mem : source ∈ files
  sourceFile : source.path = edge.sourceFile
  targetFile : target.path = edge.targetFile
  apart : source ≠ target
  caller_mem : caller ∈ source.functions
  callee_mem : callee ∈ caller.calls.names
  callee_ne : callee ≠ caller.name
  sourceKey : edge.source = source.path ++ "-" ++ caller.name
  targetKey : edge.target = target.path ++ "-" ++ callee
  defined : ∃ function ∈ target.functions, function.name = callee
  last : ∃ before after, files = before ++ target :: after ∧
    ∀ file ∈ after, ∀ function ∈ file.functions, function.name ≠ callee

theorem CallEdge.Joins.target_mem {files : List FileFacts} {edge : CallEdge}
    {source target : FileFacts} {caller : FunctionFacts} {callee : String}
    (joins : edge.Joins files source target caller callee) : target ∈ files := by
  obtain ⟨before, after, split, -⟩ := joins.last
  rw [split]
  exact List.mem_append_right _ List.mem_cons_self

/-- Where the last definition of a name is, no file after that one defines the name. -/
theorem IsLastDefinition.exists_files {files : List FileFacts} {name : String} {owner : FileFacts}
    {target : FunctionFacts} (last : IsLastDefinition files name (owner, target)) :
    ∃ before after, files = before ++ owner :: after ∧
      ∀ file ∈ after, ∀ function ∈ file.functions, function.name ≠ name := by
  obtain ⟨front, back, split, -, later⟩ := last
  induction files generalizing front with
  | nil => cases front <;> cases split
  | cons file files inductionHypothesis =>
    -- The definition is among those of the first file, or behind them.
    rw [definitions_cons] at split
    have further (rest : List Definition)
        (split : definitions files = rest ++ (owner, target) :: back) :
        ∃ before after, file :: files = before ++ owner :: after ∧
          ∀ file ∈ after, ∀ function ∈ file.functions, function.name ≠ name := by
      obtain ⟨before, after, rfl, none⟩ := inductionHypothesis rest split
      exact ⟨file :: before, after, rfl, none⟩
    rcases List.append_eq_append_iff.mp split with ⟨rest, -, behind⟩ | ⟨rest, within, behind⟩
    · exact further rest behind
    · cases rest with
      | nil => exact further [] behind.symm
      | cons definition rest =>
        obtain ⟨rfl, rfl⟩ := List.cons_eq_cons.mp behind
        have inFile : (owner, target) ∈ file.functions.map (file, ·) := by
          rw [within]
          exact List.mem_append_right _ List.mem_cons_self
        obtain ⟨function, -, same⟩ := List.mem_map.mp inFile
        cases same
        refine ⟨[], files, rfl, fun other member function inOther => ?_⟩
        exact later (other, function)
          (List.mem_append_right _ (mem_definitions_iff.mpr ⟨member, inOther⟩))

/-- The edges between files that are extracted join them. -/
theorem exists_joins_of_mem_callEdges {files : List FileFacts}
    (extracted : ∀ file ∈ files, file.IsExtracted) {edge : CallEdge}
    (member : edge ∈ callEdges files) :
    ∃ source target caller callee, edge.Joins files source target caller callee := by
  obtain ⟨source, sourceMember, caller, callerMember, callee, calleeMember, target, function, last,
    apart, rfl⟩ := mem_edgesFrom.mp member
  obtain ⟨targetMember, functionMember⟩ := mem_definitions_iff.mp last.mem_definitions
  refine ⟨source, target, caller, callee, ?_⟩
  exact
    { source_mem := sourceMember
      sourceFile := rfl
      targetFile := rfl
      apart := fun same => apart (congrArg FileFacts.path same.symm)
      caller_mem := callerMember
      callee_mem := calleeMember
      callee_ne := fun same => (extracted source sourceMember).notOwn caller callerMember
        (same ▸ calleeMember)
      sourceKey := (extracted source sourceMember).keyed caller callerMember
      targetKey := last.named ▸ (extracted target targetMember).keyed function functionMember
      defined := ⟨function, functionMember, last.named⟩
      last := last.exists_files }

theorem isExtracted_of_mem_shownFacts {load : Route → Option ParsedFile} {shown : Route → Route}
    {routes : List Route} {file : FileFacts} (member : file ∈ shownFacts load shown routes) :
    file.IsExtracted := by
  obtain ⟨route, -, extracted⟩ := List.mem_filterMap.mp member
  obtain ⟨parsed, -, rfl⟩ := Option.map_eq_some_iff.mp extracted
  exact parsed.isExtracted_facts _

/-- Every edge of an atlas with an absolute root joins two of its files. Each is the only file with
its path, if the names of all files that are shown by the path are texts. -/
theorem atlas_edges_join_files (system : FileSystem) (settings : Settings) (rules : Rules)
    (compiled : Rules.ofSettings settings = .ok rules) (root : Path)
    (absolute : root.isAbsolute = true) (top : Location)
    (located : system.locate? root = some top) (directory : system.hasDirectory top = true) :
    ∃ paths atlas, (Repository.mk root settings).discover system = .ok paths ∧
      (Repository.mk root settings).atlas system = .ok atlas ∧
      ∀ edge ∈ atlas.edges, ∃ source target caller callee,
        edge.Joins atlas.files source target caller callee ∧
        (root.ShowsTexts paths edge.sourceFile →
          atlas.files.filter (·.path = edge.sourceFile) = [source]) ∧
        (root.ShowsTexts paths edge.targetFile →
          atlas.files.filter (·.path = edge.targetFile) = [target]) := by
  obtain ⟨found, distinct, routes, discovered, analysed⟩ :=
    Repository.exists_found_of_absolute compiled absolute located directory
  have isRoute : ∀ route ∈ found, IsFileRoute route := fun route member => (routes route member).1
  refine ⟨_, _, discovered, analysed, fun edge member => ?_⟩
  obtain ⟨source, target, caller, callee, joins⟩ :=
    exists_joins_of_mem_callEdges (fun file inFiles => isExtracted_of_mem_shownFacts inFiles) member
  refine ⟨source, target, caller, callee, joins, fun texts => ?_, fun texts => ?_⟩
  · rw [← joins.sourceFile] at texts ⊢
    exact filter_path_shownFacts _ distinct isRoute joins.source_mem (texts.areTextsAt isRoute)
  · rw [← joins.targetFile] at texts ⊢
    exact filter_path_shownFacts _ distinct isRoute joins.target_mem (texts.areTextsAt isRoute)

/-- The call between the modules is an edge, which joins their files, and these are the only ones
with its paths. -/
theorem threeModules_edge_joins :
    Rules.ofSettings {} = .ok {} ∧ Path.isAbsolute "/" = true ∧
      threeModules.locate? "/" = some [] ∧ threeModules.hasDirectory [] = true ∧
      (∀ shown, Path.ShowsTexts "/" ["/a.py", "/b.py", "/c.py"] shown) ∧
      ∃ atlas, (Repository.mk "/" {}).atlas threeModules = .ok atlas ∧
        ⟨"a.py-f", "b.py-g", "a.py", "b.py"⟩ ∈ atlas.edges ∧
        ∃ source target caller callee,
          CallEdge.Joins atlas.files ⟨"a.py-f", "b.py-g", "a.py", "b.py"⟩ source target caller
            callee ∧
          atlas.files.filter (·.path = "a.py") = [source] ∧
          atlas.files.filter (·.path = "b.py") = [target] := by
  refine ⟨rfl, rfl, threeModules.locate?_root, rfl, threeModules_showsTexts, ?_⟩
  obtain ⟨paths, atlas, discovered, analysed, joins⟩ :=
    atlas_edges_join_files threeModules {} {} rfl "/" rfl [] threeModules.locate?_root rfl
  cases threeModules_atlas.symm.trans analysed
  cases threeModules_discover.symm.trans discovered
  have member : ⟨"a.py-f", "b.py-g", "a.py", "b.py"⟩ ∈ callEdges [callingFacts, calledFacts] := by
    rw [callEdges_eq_flatMap]
    decide
  obtain ⟨source, target, caller, callee, joined, one, other⟩ := joins _ member
  exact ⟨_, analysed, member, source, target, caller, callee, joined,
    one (threeModules_showsTexts _), other (threeModules_showsTexts _)⟩

/-- Of the two files that are shown by the same path, an edge does not tell which one it is
from. -/
theorem twinModules_edge_from_either :
    Rules.ofSettings {} = .ok {} ∧ Path.isAbsolute "/" = true ∧
      twinModules.locate? "/" = some [] ∧ twinModules.hasDirectory [] = true ∧
      ∃ atlas, (Repository.mk "/" {}).atlas twinModules = .ok atlas ∧
        ∃ edge ∈ atlas.edges, ∀ source,
          atlas.files.filter (·.path = edge.sourceFile) ≠ [source] := by
  refine ⟨rfl, rfl, twinModules.locate?_root, rfl, _, twinModules_atlas,
    ⟨"\uFFFD.py-f", "b.py-g", "\uFFFD.py", "b.py"⟩, ?_, fun source single => ?_⟩
  · show _ ∈ callEdges [calledFacts, twinFacts, twinFacts]
    rw [callEdges_eq_flatMap]
    decide
  · have two : ([calledFacts, twinFacts, twinFacts].filter (·.path = "\uFFFD.py")).length = 2 := by
      decide
    cases two.symm.trans (congrArg List.length single)

end CodeAtlas
