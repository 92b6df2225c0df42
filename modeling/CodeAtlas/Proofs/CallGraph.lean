/-
What the edges between some files are. The index that names are looked up in is built by
overwriting, file by file and function by function; here that is read as one pass over all
definitions, so a look-up finds the last definition of a name in the whole repository. The
edges are then the calls, in the order of files, functions and names, whose last definition is
in another file.
-/
import CodeAtlas.CallGraph
import CodeAtlas.Proofs.Text.ByteOrder
import Std.Data.HashMap.Lemmas

namespace CodeAtlas

/-- A function, with the file it is defined in. -/
abbrev Definition := FileFacts × FunctionFacts

/-- The functions of some files, in the order of the files and of the functions in each. -/
def definitions (files : List FileFacts) : List Definition :=
  files.flatMap fun file => file.functions.map fun function => (file, function)

theorem mem_definitions_iff {files : List FileFacts} {definition : Definition} :
    definition ∈ definitions files ↔
      definition.1 ∈ files ∧ definition.2 ∈ definition.1.functions := by
  rw [definitions, List.mem_flatMap]
  constructor
  · rintro ⟨file, member, inFile⟩
    obtain ⟨function, inFunctions, rfl⟩ := List.mem_map.mp inFile
    exact ⟨member, inFunctions⟩
  · rintro ⟨member, inFunctions⟩
    exact ⟨definition.1, member, List.mem_map_of_mem inFunctions⟩

theorem definitions_cons (file : FileFacts) (files : List FileFacts) :
    definitions (file :: files) = file.functions.map (file, ·) ++ definitions files :=
  List.flatMap_cons

theorem definitions_append (front back : List FileFacts) :
    definitions (front ++ back) = definitions front ++ definitions back :=
  List.flatMap_append

/-- The last definition of a name. -/
def lastDefinition? (files : List FileFacts) (name : String) : Option Definition :=
  ((definitions files).filter fun definition => definition.2.name == name).getLast?

/-- A definition has a name, and no definition behind it has the same. -/
def IsLastDefinition (files : List FileFacts) (name : String) (definition : Definition) : Prop :=
  ∃ before after, definitions files = before ++ definition :: after ∧
    definition.2.name = name ∧ ∀ later ∈ after, later.2.name ≠ name

theorem lastDefinition?_eq_some_iff (files : List FileFacts) (name : String)
    (definition : Definition) :
    lastDefinition? files name = some definition ↔ IsLastDefinition files name definition := by
  unfold lastDefinition? IsLastDefinition
  generalize definitions files = all
  constructor
  · intro found
    obtain ⟨front, equal⟩ := List.getLast?_eq_some_iff.mp found
    obtain ⟨before, after, rfl, -, filtered⟩ := List.filter_eq_append_iff.mp equal
    obtain ⟨passed, rest, rfl, -, named, nothing⟩ := List.filter_eq_cons_iff.mp filtered
    refine ⟨before ++ passed, rest, by rw [List.append_assoc], by simpa using named, ?_⟩
    intro later member
    simpa using List.filter_eq_nil_iff.mp nothing later member
  · rintro ⟨before, after, rfl, rfl, last⟩
    have nothing : (after.filter fun later => later.2.name == definition.2.name) = [] :=
      List.filter_eq_nil_iff.mpr fun later member => by simpa using last later member
    rw [List.filter_append, List.filter_cons_of_pos (by simp), nothing, List.getLast?_concat]

theorem IsLastDefinition.mem_definitions {files : List FileFacts} {name : String}
    {definition : Definition} (last : IsLastDefinition files name definition) :
    definition ∈ definitions files := by
  obtain ⟨before, after, split, -⟩ := last
  rw [split]
  exact List.mem_append_right _ List.mem_cons_self

theorem IsLastDefinition.named {files : List FileFacts} {name : String} {definition : Definition}
    (last : IsLastDefinition files name definition) : definition.2.name = name := by
  obtain ⟨-, -, -, named, -⟩ := last
  exact named

/-- A name that is defined has a last definition. -/
theorem exists_isLastDefinition {files : List FileFacts} {definition : Definition}
    (member : definition ∈ definitions files) :
    ∃ last, IsLastDefinition files definition.2.name last := by
  cases found : lastDefinition? files definition.2.name with
  | none =>
    have nothing := List.filter_eq_nil_iff.mp (List.getLast?_eq_none_iff.mp found)
    exact absurd (beq_self_eq_true _) (nothing definition member)
  | some last => exact ⟨last, (lastDefinition?_eq_some_iff files _ last).mp found⟩

/-! ### The index -/

namespace NameIndex

/-- Who owns the name of a definition. -/
def ownerOf (definition : Definition) : Owner := ⟨definition.1.path, definition.2.key⟩

/-- Makes a definition the owner of its name. -/
def addDefinition (index : NameIndex) (definition : Definition) : NameIndex :=
  index.insert definition.2.name (ownerOf definition)

/-- The loop over files and the loop over functions are one pass over the definitions. -/
theorem ofFiles_eq_foldl (files : List FileFacts) :
    ofFiles files = (definitions files).foldl addDefinition ∅ := by
  rw [definitions, List.foldl_flatMap]
  refine congrArg (fun step => files.foldl step ∅) ?_
  funext index file
  rw [List.foldl_map]
  rfl

/-- In a pass over some definitions the last one with a name ends up as its owner; a name that
none of them has keeps its owner. -/
theorem getElem?_foldl_addDefinition (all : List Definition) (index : NameIndex) (name : String) :
    (all.foldl addDefinition index)[name]? =
      (((all.filter fun definition => definition.2.name == name).getLast?).map ownerOf).or
        index[name]? := by
  induction all generalizing index with
  | nil => rfl
  | cons definition rest inductionHypothesis =>
    rw [List.foldl_cons, inductionHypothesis, addDefinition, Std.HashMap.getElem?_insert,
      List.filter_cons]
    split
    · rw [List.getLast?_cons]
      cases (rest.filter fun later => later.2.name == name).getLast? <;> rfl
    · rfl

theorem getElem?_ofFiles (files : List FileFacts) (name : String) :
    (ofFiles files)[name]? = (lastDefinition? files name).map ownerOf := by
  rw [ofFiles_eq_foldl, getElem?_foldl_addDefinition, Std.HashMap.getElem?_empty, Option.or_none]
  rfl

end NameIndex

/-! ### The edges -/

/-- The edge for a call, if the last definition of the name is in a file with another path. -/
def edgeToLast? (files : List FileFacts) (file : FileFacts) (function : FunctionFacts)
    (callee : String) : Option CallEdge :=
  (lastDefinition? files callee).bind fun (owner, target) =>
    if owner.path = file.path then none
    else some ⟨function.key, target.key, file.path, owner.path⟩

theorem edgeToLast?_eq_some_iff (files : List FileFacts) (file : FileFacts)
    (function : FunctionFacts) (callee : String) (edge : CallEdge) :
    edgeToLast? files file function callee = some edge ↔
      ∃ owner target, IsLastDefinition files callee (owner, target) ∧ owner.path ≠ file.path ∧
        edge = ⟨function.key, target.key, file.path, owner.path⟩ := by
  unfold edgeToLast?
  rw [Option.bind_eq_some_iff]
  constructor
  · rintro ⟨⟨owner, target⟩, found, emitted⟩
    refine ⟨owner, target, (lastDefinition?_eq_some_iff files callee _).mp found, ?_⟩
    dsimp only at emitted
    split at emitted
    · cases emitted
    next different => exact ⟨different, (Option.some.inj emitted).symm⟩
  · rintro ⟨owner, target, last, different, rfl⟩
    exact ⟨(owner, target), (lastDefinition?_eq_some_iff files callee _).mpr last,
      if_neg different⟩

theorem edge?_ofFiles (files : List FileFacts) :
    (NameIndex.ofFiles files).edge? = edgeToLast? files := by
  funext file function callee
  rw [NameIndex.edge?, NameIndex.getElem?_ofFiles, edgeToLast?]
  cases lastDefinition? files callee <;> rfl

/-- The edges for the calls in some files, where the names are looked up among all files. -/
def edgesFrom (all callers : List FileFacts) : List CallEdge :=
  callers.flatMap (NameIndex.ofFiles all).fileEdges

theorem edgesFrom_eq_flatMap (all callers : List FileFacts) :
    edgesFrom all callers =
      callers.flatMap fun file => file.functions.flatMap fun caller =>
        caller.calls.names.filterMap (edgeToLast? all file caller) := by
  rw [edgesFrom, ← edge?_ofFiles]
  rfl

theorem mem_edgesFrom {all callers : List FileFacts} {edge : CallEdge} :
    edge ∈ edgesFrom all callers ↔
      ∃ file ∈ callers, ∃ caller ∈ file.functions, ∃ callee ∈ caller.calls.names,
        ∃ owner target, IsLastDefinition all callee (owner, target) ∧ owner.path ≠ file.path ∧
          edge = ⟨caller.key, target.key, file.path, owner.path⟩ := by
  simp only [edgesFrom_eq_flatMap, List.mem_flatMap, List.mem_filterMap, edgeToLast?_eq_some_iff]

theorem callEdges_eq_flatMap (files : List FileFacts) :
    callEdges files =
      files.flatMap fun file => file.functions.flatMap fun function =>
        function.calls.names.filterMap (edgeToLast? files file function) :=
  edgesFrom_eq_flatMap files files

/-- The edges between some files, whatever names and paths are repeated: file by file, function
by function and name by name in ascending order of bytes, one edge for each call whose last
definition is in a file with another path. A call whose last definition has the caller's own
path gives none, wherever else the name is defined, and a call to a name that the caller's file
defines leads away from it when another file defines the name later. -/
theorem callEdges_to_last_definitions (files : List FileFacts) :
    callEdges files =
        (files.flatMap fun file => file.functions.flatMap fun function =>
          function.calls.names.filterMap (edgeToLast? files file function)) ∧
      (∀ file function callee edge,
        edgeToLast? files file function callee = some edge ↔
          ∃ owner target, IsLastDefinition files callee (owner, target) ∧
            owner.path ≠ file.path ∧
            edge = ⟨function.key, target.key, file.path, owner.path⟩) ∧
      (∀ function : FunctionFacts,
        (function.calls.names.map fun callee => Text.encode callee.toList).Pairwise (· < ·)) ∧
      (∀ file function callee owner target, IsLastDefinition files callee (owner, target) →
        owner.path = file.path → edgeToLast? files file function callee = none) ∧
      (∀ file ∈ files, ∀ function ∈ file.functions, ∀ callee ∈ function.calls.names,
        ∀ owner target, IsLastDefinition files callee (owner, target) →
          owner.path ≠ file.path →
          (⟨function.key, target.key, file.path, owner.path⟩ : CallEdge) ∈ callEdges files) := by
  refine ⟨callEdges_eq_flatMap files, edgeToLast?_eq_some_iff files,
    fun function => function.calls.names_ascending_bytes, ?_, ?_⟩
  · intro file function callee owner target last same
    rw [edgeToLast?, (lastDefinition?_eq_some_iff files callee _).mpr last]
    exact if_pos same
  · intro file fileMember function functionMember callee calleeMember owner target last different
    rw [callEdges_eq_flatMap]
    refine List.mem_flatMap.mpr ⟨file, fileMember, List.mem_flatMap.mpr
      ⟨function, functionMember, List.mem_filterMap.mpr ⟨callee, calleeMember, ?_⟩⟩⟩
    exact (edgeToLast?_eq_some_iff files file function callee _).mpr
      ⟨owner, target, last, different, rfl⟩

/-- A module that calls its own helper, and one that defines a helper of that name after it. -/
def helperTwice : List FileFacts :=
  let helper (path : String) : FunctionFacts :=
    ⟨path ++ "-helper", "helper", [], "None", 1, 3, 4, 2, "", .empty⟩
  let caller : FunctionFacts :=
    ⟨"a.py-main", "main", [], "None", 1, 1, 2, 2, "", .ofList ["helper"]⟩
  [⟨"a.py", .python, [], [caller, helper "a.py"], 4, 2⟩,
    ⟨"b.py", .python, [], [helper "b.py"], 4, 1⟩]

/-- The call leads to the other module, though the caller's own defines the name. -/
theorem helperTwice_call_leads_away :
    (∃ file ∈ helperTwice, file.path = "a.py" ∧ (file.function? "helper").isSome = true) ∧
      (lastDefinition? helperTwice "helper").map (·.1.path) = some "b.py" ∧
      (⟨"a.py-main", "b.py-helper", "a.py", "b.py"⟩ : CallEdge) ∈ callEdges helperTwice := by
  refine ⟨⟨_, List.mem_cons_self, rfl, rfl⟩, rfl, ?_⟩
  obtain ⟨-, -, -, -, redirected⟩ := callEdges_to_last_definitions helperTwice
  exact redirected _ List.mem_cons_self _ List.mem_cons_self "helper" (by decide) _ _
    ((lastDefinition?_eq_some_iff helperTwice "helper" _).mp rfl) (by decide)

end CodeAtlas
