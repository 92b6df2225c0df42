/-
How the list of edges depends on the list of files. What a file calls is looked up in the index,
so its edges depend on the other files only through the owners of the names that it calls. If all
definitions of a name agree on its owner, the order of the files does not matter to the index, and
the edges only change places as the files do. If nobody calls what a file defines, the file changes
no look-up that the others make, and its own edges are put between theirs. And if no two functions
have one key, an edge can be followed back to its caller and to the name that is called, so no edge
is listed twice.
-/
import Mathlib.Data.List.Nodup
import Mathlib.Data.List.Perm.Lattice
import CodeAtlas.Proofs.CallGraph

namespace CodeAtlas

/-! ### Look-ups -/

theorem edgesFrom_append (all front back : List FileFacts) :
    edgesFrom all (front ++ back) = edgesFrom all front ++ edgesFrom all back :=
  List.flatMap_append

/-- Two lists of files that agree on who owns the names that are called give the same edges. -/
theorem edgesFrom_congr {one other callers : List FileFacts}
    (same : ∀ file ∈ callers, ∀ caller ∈ file.functions, ∀ callee ∈ caller.calls.names,
      (NameIndex.ofFiles one)[callee]? = (NameIndex.ofFiles other)[callee]?) :
    edgesFrom one callers = edgesFrom other callers := by
  refine List.flatMap_congr fun file inCallers => List.flatMap_congr fun caller inFile => ?_
  refine List.filterMap_congr fun callee called => ?_
  rw [NameIndex.edge?, NameIndex.edge?, same file inCallers caller inFile callee called]

/-! ### The order of the files -/

/-- All functions with one name are at one path and have one key. -/
def NamesHaveOneOwner (files : List FileFacts) : Prop :=
  ∀ first ∈ definitions files, ∀ second ∈ definitions files, first.2.name = second.2.name →
    first.1.path = second.1.path ∧ first.2.key = second.2.key

instance (files : List FileFacts) : Decidable (NamesHaveOneOwner files) :=
  inferInstanceAs (Decidable (∀ first ∈ definitions files, ∀ second ∈ definitions files, _ → _))

/-- Where the definitions of a name agree on its owner, any of them tells who that is. -/
theorem NamesHaveOneOwner.getElem?_eq_some_iff {files : List FileFacts}
    (oneOwner : NamesHaveOneOwner files) (name : String) (owner : Owner) :
    (NameIndex.ofFiles files)[name]? = some owner ↔
      ∃ definition ∈ definitions files,
        definition.2.name = name ∧ NameIndex.ownerOf definition = owner := by
  rw [NameIndex.getElem?_ofFiles, Option.map_eq_some_iff]
  constructor
  · rintro ⟨definition, found, rfl⟩
    have last := (lastDefinition?_eq_some_iff files name definition).mp found
    exact ⟨definition, last.mem_definitions, last.named, rfl⟩
  · rintro ⟨definition, member, rfl, rfl⟩
    -- The last definition of the name may be another one, but it has the same owner.
    obtain ⟨last, isLast⟩ := exists_isLastDefinition member
    obtain ⟨path, key⟩ := oneOwner last isLast.mem_definitions definition member isLast.named
    refine ⟨last, (lastDefinition?_eq_some_iff files _ last).mpr isLast, ?_⟩
    rw [NameIndex.ownerOf, path, key]
    rfl

section Order

variable {one other : List FileFacts} (perm : one.Perm other)
include perm

theorem mem_definitions_of_perm {definition : Definition} :
    definition ∈ definitions one ↔ definition ∈ definitions other :=
  (perm.flatMap_right _).mem_iff

theorem NamesHaveOneOwner.of_perm (oneOwner : NamesHaveOneOwner one) : NamesHaveOneOwner other :=
  fun first inFirst second inSecond => oneOwner first ((mem_definitions_of_perm perm).mpr inFirst)
    second ((mem_definitions_of_perm perm).mpr inSecond)

theorem NamesHaveOneOwner.getElem?_eq_of_perm (oneOwner : NamesHaveOneOwner one) (name : String) :
    (NameIndex.ofFiles one)[name]? = (NameIndex.ofFiles other)[name]? := by
  refine Option.ext fun owner => ?_
  rw [oneOwner.getElem?_eq_some_iff, (oneOwner.of_perm perm).getElem?_eq_some_iff]
  exact exists_congr fun definition => and_congr_left' (mem_definitions_of_perm perm)

end Order

/-- If all functions with one name are at one path and have one key, files in another order have
the same edges in another order. The functions may well be several, as long as they are all at
that path. -/
theorem callEdges_perm_of_one_owner (one other : List FileFacts) (oneOwner : NamesHaveOneOwner one)
    (perm : one.Perm other) : (callEdges one).Perm (callEdges other) := by
  have moved : (edgesFrom one one).Perm (edgesFrom one other) := perm.flatMap_right _
  have looked : edgesFrom one other = edgesFrom other other :=
    edgesFrom_congr fun _ _ _ _ callee _ => oneOwner.getElem?_eq_of_perm perm callee
  rwa [looked] at moved

/-- A file whose functions have no more than names and calls. -/
def bareFile (path : String) (functions : List (String × List String)) : FileFacts where
  path := path
  language := .cpp
  imports := []
  functions := functions.map fun (name, calls) =>
    ⟨path ++ "-" ++ name, name, [], "unknown", 1, 1, 1, 1, "", .ofList calls⟩
  totalLines := 1
  totalFunctions := functions.length

/-- A file that calls a name, and one that defines it twice. -/
def overloadedName : List FileFacts :=
  [bareFile "a.cpp" [("main", ["load"])], bareFile "b.cpp" [("load", []), ("load", [])]]

/-- The call leads to the second file in either order. -/
theorem overloadedName_perm :
    NamesHaveOneOwner overloadedName ∧ overloadedName.Perm overloadedName.reverse ∧
      callEdges overloadedName = [⟨"a.cpp-main", "b.cpp-load", "a.cpp", "b.cpp"⟩] ∧
      (callEdges overloadedName).Perm (callEdges overloadedName.reverse) := by
  have oneOwner : NamesHaveOneOwner overloadedName := by decide +kernel
  have perm : overloadedName.Perm overloadedName.reverse := (List.reverse_perm _).symm
  have edges : callEdges overloadedName = [⟨"a.cpp-main", "b.cpp-load", "a.cpp", "b.cpp"⟩] := by
    rw [callEdges_eq_flatMap]
    decide +kernel
  exact ⟨oneOwner, perm, edges, callEdges_perm_of_one_owner _ _ oneOwner perm⟩

/-! ### A file that nobody calls -/

/-- A file in the middle that does not define a name is not seen when the name is looked up. -/
theorem lastDefinition?_of_not_defined (before after : List FileFacts) {file : FileFacts}
    {name : String} (notDefined : ∀ function ∈ file.functions, function.name ≠ name) :
    lastDefinition? (before ++ [file] ++ after) name = lastDefinition? (before ++ after) name := by
  have nothing :
      ((definitions [file]).filter fun definition => definition.2.name == name) = [] := by
    refine List.filter_eq_nil_iff.mpr fun definition member => ?_
    obtain ⟨inFile, inFunctions⟩ := mem_definitions_iff.mp member
    rw [List.mem_singleton.mp inFile] at inFunctions
    simpa using notDefined definition.2 inFunctions
  simp only [lastDefinition?, definitions_append, List.filter_append, nothing, List.append_nil]

/-- Putting a file between others, none of which calls what it defines, puts the edges for its own
calls between theirs. All other edges stay as they are and where they are: those for the calls in
the files before it, and those for the calls in the files behind it. -/
theorem callEdges_insert_uncalled (before after : List FileFacts) (file : FileFacts)
    (uncalled : ∀ other ∈ before ++ after, ∀ caller ∈ other.functions,
      ∀ function ∈ file.functions, function.name ∉ caller.calls.names) :
    callEdges (before ++ [file] ++ after) =
        edgesFrom (before ++ after) before ++ edgesFrom (before ++ [file] ++ after) [file] ++
          edgesFrom (before ++ after) after ∧
      edgesFrom (before ++ after) before ++ edgesFrom (before ++ after) after =
        callEdges (before ++ after) ∧
      ∀ all callers edge, edge ∈ edgesFrom all callers ↔
        ∃ other ∈ callers, ∃ caller ∈ other.functions, ∃ callee ∈ caller.calls.names,
          ∃ owner target, IsLastDefinition all callee (owner, target) ∧
            owner.path ≠ other.path ∧
            edge = ⟨caller.key, target.key, other.path, owner.path⟩ := by
  -- The others call no name that the file defines, so their look-ups pass it by.
  have looked (callers : List FileFacts) (among : ∀ other ∈ callers, other ∈ before ++ after) :
      edgesFrom (before ++ [file] ++ after) callers = edgesFrom (before ++ after) callers := by
    refine edgesFrom_congr fun other member caller inOther callee called => ?_
    rw [NameIndex.getElem?_ofFiles, NameIndex.getElem?_ofFiles, lastDefinition?_of_not_defined]
    rintro function inFile rfl
    exact uncalled other (among other member) caller inOther function inFile called
  refine ⟨?_, (edgesFrom_append (before ++ after) before after).symm, fun _ _ _ => mem_edgesFrom⟩
  rw [← looked before fun _ => List.mem_append_left after,
    ← looked after fun _ => List.mem_append_right before, ← edgesFrom_append, ← edgesFrom_append]
  rfl

/-- A file that calls a name. -/
def callingFile : FileFacts := bareFile "a.cpp" [("main", ["load"])]

/-- A file that defines the name and another one. -/
def calledFile : FileFacts := bareFile "b.cpp" [("load", []), ("save", [])]

/-- A file that calls the name, and defines the other one again, which nobody calls. -/
def uncalledFile : FileFacts := bareFile "c.cpp" [("save", ["load"])]

/-- The file that nobody calls adds the edge for its own call, and nothing else. -/
theorem uncalledFile_inserted :
    (∀ other ∈ [callingFile] ++ [calledFile], ∀ caller ∈ other.functions,
        ∀ function ∈ uncalledFile.functions, function.name ∉ caller.calls.names) ∧
      callEdges ([callingFile] ++ [uncalledFile] ++ [calledFile]) =
        edgesFrom ([callingFile] ++ [calledFile]) [callingFile] ++
          [⟨"c.cpp-save", "b.cpp-load", "c.cpp", "b.cpp"⟩] ++
          edgesFrom ([callingFile] ++ [calledFile]) [calledFile] ∧
      edgesFrom ([callingFile] ++ [calledFile]) [callingFile] ++
          edgesFrom ([callingFile] ++ [calledFile]) [calledFile] =
        callEdges ([callingFile] ++ [calledFile]) := by
  have uncalled : ∀ other ∈ [callingFile] ++ [calledFile], ∀ caller ∈ other.functions,
      ∀ function ∈ uncalledFile.functions, function.name ∉ caller.calls.names := by
    decide +kernel
  have own : edgesFrom ([callingFile] ++ [uncalledFile] ++ [calledFile]) [uncalledFile] =
      [⟨"c.cpp-save", "b.cpp-load", "c.cpp", "b.cpp"⟩] := by
    rw [edgesFrom_eq_flatMap]
    decide +kernel
  obtain ⟨inserted, others, -⟩ :=
    callEdges_insert_uncalled [callingFile] [calledFile] uncalledFile uncalled
  rw [own] at inserted
  exact ⟨uncalled, inserted, others⟩

/-! ### No edge twice -/

theorem NameSet.nodup_names (set : NameSet) : set.names.Nodup := by
  refine set.ascending.imp ?_
  rintro name _ less rfl
  exact String.lt_irrefl name less

theorem callEdges_eq_flatMap_definitions (files : List FileFacts) :
    callEdges files =
      (definitions files).flatMap fun caller =>
        caller.2.calls.names.filterMap (edgeToLast? files caller.1 caller.2) := by
  rw [callEdges_eq_flatMap, definitions, List.flatMap_assoc]
  simp only [List.flatMap_map]

/-- If no two functions have one key, one caller has an edge to a key for one name only. -/
theorem callee_eq_of_edgeToLast? {files : List FileFacts}
    (distinct : ((definitions files).map (·.2.key)).Nodup) {file : FileFacts}
    {function : FunctionFacts} {first second : String} {edge : CallEdge}
    (emitted : edgeToLast? files file function first = some edge)
    (alsoEmitted : edgeToLast? files file function second = some edge) : first = second := by
  obtain ⟨owner, target, last, -, rfl⟩ := (edgeToLast?_eq_some_iff ..).mp emitted
  obtain ⟨otherOwner, otherTarget, otherLast, -, same⟩ :=
    (edgeToLast?_eq_some_iff ..).mp alsoEmitted
  have sameTarget : (owner, target) = (otherOwner, otherTarget) :=
    List.inj_on_of_nodup_map distinct last.mem_definitions otherLast.mem_definitions
      (congrArg CallEdge.target same)
  rw [← last.named, ← otherLast.named, sameTarget]

/-- If no two functions have one key, no edge is listed twice. -/
theorem callEdges_nodup_of_distinct_keys (files : List FileFacts)
    (distinct : ((definitions files).map (·.2.key)).Nodup) : (callEdges files).Nodup := by
  rw [callEdges_eq_flatMap_definitions, List.nodup_flatMap]
  constructor
  · intro caller _
    exact caller.2.calls.nodup_names.filterMap fun _ _ _ => callee_eq_of_edgeToLast? distinct
  · -- An edge starts at the key of its caller, so two callers have no edge in common.
    refine (List.pairwise_map.mp distinct).imp ?_
    intro first second different edge inFirst inSecond
    obtain ⟨_, -, emitted⟩ := List.mem_filterMap.mp inFirst
    obtain ⟨_, -, alsoEmitted⟩ := List.mem_filterMap.mp inSecond
    obtain ⟨_, _, -, -, rfl⟩ := (edgeToLast?_eq_some_iff ..).mp emitted
    obtain ⟨_, _, -, -, same⟩ := (edgeToLast?_eq_some_iff ..).mp alsoEmitted
    exact different (congrArg CallEdge.source same)

/-- Two files that call the names of a third one, the first of them two names. -/
def sharedNames : List FileFacts :=
  [bareFile "a.cpp" [("main", ["load", "save"])], bareFile "b.cpp" [("load", []), ("save", [])],
    bareFile "c.cpp" [("run", ["load"])]]

/-- The three calls are three edges. -/
theorem sharedNames_nodup :
    ((definitions sharedNames).map (·.2.key)).Nodup ∧
      callEdges sharedNames =
        [⟨"a.cpp-main", "b.cpp-load", "a.cpp", "b.cpp"⟩,
          ⟨"a.cpp-main", "b.cpp-save", "a.cpp", "b.cpp"⟩,
          ⟨"c.cpp-run", "b.cpp-load", "c.cpp", "b.cpp"⟩] ∧
      (callEdges sharedNames).Nodup := by
  have distinct : ((definitions sharedNames).map (·.2.key)).Nodup := by decide +kernel
  refine ⟨distinct, ?_, callEdges_nodup_of_distinct_keys sharedNames distinct⟩
  rw [callEdges_eq_flatMap]
  decide +kernel

end CodeAtlas
