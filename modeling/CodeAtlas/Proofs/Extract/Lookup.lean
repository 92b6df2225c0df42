/-
The code of a function by its name. It can be looked up in the file itself, where the first
definition with the name is taken, or in the facts about the file, which leave out definitions
without a name and are built for all others before the first one is chosen. The two agree: a
definition whose name is asked for is left out of neither, and the facts stand in the order in
which definitions are visited.
-/
import CodeAtlas.Proofs.Repository.Records
import CodeAtlas.Proofs.Syntax.Preorder

namespace CodeAtlas

open Syntax

namespace ParsedFile

/-- A definition is the first one with a name: on the way through the tree, every other definition
with the name comes behind it. -/
structure IsFirst (file : ParsedFile) (name : String) (node : Node) : Prop where
  defined : node ∈ file.definitions
  named : file.dialect.name? file.source node = some name
  first : ∀ other ∈ file.definitions, file.dialect.name? file.source other = some name →
    other = node ∨ node.way < other.way

/-- The first definition with a name. -/
def first? (file : ParsedFile) (name : String) : Option Node :=
  file.definitions.find? fun node => file.dialect.name? file.source node == some name

theorem isFirst_of_first? {file : ParsedFile} {name : String} {node : Node}
    (found : file.first? name = some node) : file.IsFirst name node := by
  obtain ⟨named, before, behind, split, others⟩ := List.find?_eq_some_iff_append.mp found
  have ordered : file.definitions.Pairwise fun first second => first.way < second.way :=
    file.root.pairwise_descendants.filter _
  rw [split, List.pairwise_append, List.pairwise_cons] at ordered
  obtain ⟨-, ⟨later, -⟩, -⟩ := ordered
  refine ⟨?_, by simpa using named, fun other member otherNamed => ?_⟩
  · rw [split]
    exact List.mem_append_right _ List.mem_cons_self
  · rw [split] at member
    rcases List.mem_append.mp member with earlier | member
    · have unnamed := others other earlier
      rw [otherNamed] at unnamed
      simp at unnamed
    · rcases List.mem_cons.mp member with rfl | after
      · exact .inl rfl
      · exact .inr (later other after)

theorem code?_eq_map_first? (file : ParsedFile) (name : String) :
    file.code? name = (file.first? name).map file.source.stringOf := rfl

theorem definedName?_eq_some_iff {file : ParsedFile} {node : Node} {name : String} :
    file.definedName? node = some name ↔
      file.dialect.name? file.source node = some name ∧ name ≠ "" := by
  rw [definedName?, Option.filter_eq_some_iff]
  refine and_congr_right fun _ => ?_
  rw [Bool.not_eq_true', ← Bool.not_eq_true, String.isEmpty_iff]

/-- A name that is not empty is found among the facts where it is found in the file. -/
theorem function?_facts (file : ParsedFile) (path : String) {name : String}
    (nonempty : name ≠ "") :
    (file.facts path).function? name = (file.first? name).map (file.functionFacts path name) := by
  have recorded (node : Node) :
      (((file.definedName? node).map fun own => file.functionFacts path own node).any
        fun function => function.name == name) =
      (file.dialect.name? file.source node == some name) := by
    rw [Bool.eq_iff_iff, beq_iff_eq, Option.any_map, Option.any_eq_true]
    constructor
    · rintro ⟨own, defined, same⟩
      rw [show own = name from beq_iff_eq.mp same] at defined
      exact (definedName?_eq_some_iff.mp defined).1
    · intro named
      exact ⟨name, definedName?_eq_some_iff.mpr ⟨named, nonempty⟩, beq_self_eq_true name⟩
  have found : (file.facts path).function? name = (file.first? name).bind fun node =>
      (file.definedName? node).map fun own => file.functionFacts path own node := by
    show (file.functions path).find? (·.name == name) = _
    rw [functions, List.find?_filterMap, first?]
    simp only [recorded]
  rw [found]
  cases first : file.first? name with
  | none => rfl
  | some node =>
    have named := definedName?_eq_some_iff.mpr ⟨(isFirst_of_first? first).named, nonempty⟩
    rw [Option.bind_some, named]
    rfl

end ParsedFile

/-- A file is looked for at an absolute path, whatever the root. -/
theorem Repository.fileFacts?_of_isAbsolute (repository : Repository) (system : FileSystem)
    {path : Path} (absolute : path.isAbsolute = true) :
    repository.fileFacts? system path =
      (ParsedFile.load? system path).map (·.facts (repository.display path)) := by
  have stays : repository.root.join path = path := if_pos absolute
  rw [Repository.fileFacts?, stays]

theorem ParsedFile.load?_eq_none {system : FileSystem} {path : Path}
    (nothing : Language.ofPath? path = none ∨ system.hasText path = false) :
    ParsedFile.load? system path = none := by
  rw [Option.eq_none_iff_forall_ne_some]
  intro file loaded
  obtain ⟨language, content, -, known, found, notBlank, -⟩ := ParsedFile.load?_eq_some_iff.mp loaded
  rcases nothing with unknown | blank
  · rw [unknown] at known
    cases known
  · rw [FileSystem.hasText_eq_true_iff.mpr ⟨content, found, notBlank⟩] at blank
    cases blank

/-- The code of a function is found at an absolute path exactly if the facts about the file, seen
from any root, hold a function with the name, and it is the code of that function, which is the
first one with the name. Nothing is found in a file that is of no known language, that is missing
or that is blank. -/
theorem functionCode?_eq_some_iff_recorded (system : FileSystem) (path : Path)
    (absolute : path.isAbsolute = true) (repository : Repository) (name : String)
    (nonempty : name ≠ "") :
    (∀ code, functionCode? system path name = some code ↔
        ∃ file function, repository.fileFacts? system path = some file ∧
          file.function? name = some function ∧ function.code = code) ∧
      (∀ file function, repository.fileFacts? system path = some file →
        file.function? name = some function →
        ∃ parsed node, ParsedFile.load? system path = some parsed ∧ parsed.IsFirst name node ∧
          function = parsed.functionFacts (repository.display path) name node) ∧
      (Language.ofPath? path = none ∨ system.file? path = none ∨ system.hasText path = false →
        functionCode? system path name = none ∧ repository.fileFacts? system path = none) := by
  rw [repository.fileFacts?_of_isAbsolute system absolute, functionCode?]
  refine ⟨fun code => ?_, fun facts function => ?_, fun nothing => ?_⟩
  · cases ParsedFile.load? system path with
    | none => simp
    | some parsed =>
      rw [Option.bind_some, Option.map_some, parsed.code?_eq_map_first?, Option.map_eq_some_iff]
      constructor
      · rintro ⟨node, first, rfl⟩
        refine ⟨_, parsed.functionFacts (repository.display path) name node, rfl, ?_, rfl⟩
        rw [parsed.function?_facts _ nonempty, first, Option.map_some]
      · rintro ⟨facts, function, extracted, found, rfl⟩
        cases extracted
        rw [parsed.function?_facts _ nonempty] at found
        obtain ⟨node, first, rfl⟩ := Option.map_eq_some_iff.mp found
        exact ⟨node, first, rfl⟩
  · intro extracted found
    obtain ⟨parsed, loaded, rfl⟩ := Option.map_eq_some_iff.mp extracted
    rw [parsed.function?_facts _ nonempty] at found
    obtain ⟨node, first, rfl⟩ := Option.map_eq_some_iff.mp found
    exact ⟨parsed, node, loaded, ParsedFile.isFirst_of_first? first, rfl⟩
  · have noText : Language.ofPath? path = none ∨ system.hasText path = false := by
      rcases nothing with unknown | missing | blank
      · exact .inl unknown
      · exact .inr (by rw [FileSystem.hasText, missing]; rfl)
      · exact .inr blank
    rw [ParsedFile.load?_eq_none noText]
    exact ⟨rfl, rfl⟩

/-- A module with a function that defines another one of its own name. -/
def nestedModule : Content :=
  pythonContent (Text.encode "def f():\n def f(): 0".toList) <|
    .node ⟨"module", true, none, 0, 20⟩
      [.node ⟨"function_definition", true, none, 0, 20⟩
        [.node ⟨"def", false, none, 0, 3⟩ [],
          .node ⟨"identifier", true, some "name", 4, 5⟩ [],
          .node ⟨"parameters", true, some "parameters", 5, 7⟩
            [.node ⟨"(", false, none, 5, 6⟩ [], .node ⟨")", false, none, 6, 7⟩ []],
          .node ⟨":", false, none, 7, 8⟩ [],
          .node ⟨"block", true, some "body", 10, 20⟩
            [.node ⟨"function_definition", true, none, 10, 20⟩
              [.node ⟨"def", false, none, 10, 13⟩ [],
                .node ⟨"identifier", true, some "name", 14, 15⟩ [],
                .node ⟨"parameters", true, some "parameters", 15, 17⟩
                  [.node ⟨"(", false, none, 15, 16⟩ [], .node ⟨")", false, none, 16, 17⟩ []],
                .node ⟨":", false, none, 17, 18⟩ [],
                .node ⟨"block", true, some "body", 19, 20⟩
                  [.node ⟨"expression_statement", true, none, 19, 20⟩
                    [.node ⟨"integer", true, none, 19, 20⟩ []]]]]]]

/-- The module in a directory of its own. -/
def nestedSystem : FileSystem := (∅ : FileSystem).insert [] "a.py" (.file nestedModule)

theorem nestedSystem_functionCode? :
    functionCode? nestedSystem "/a.py" "f" = some "def f():\n def f(): 0" := by
  have stands : nestedSystem.entry? ([] ++ [("a.py" : Name)]) = some (.file nestedModule) := rfl
  have found : nestedSystem.file? "/a.py" = some nestedModule :=
    FileSystem.file?_of_top (by decide) (by decide) stands
  have loaded := ParsedFile.load?_eq_some_iff.mpr
    ⟨.python, nestedModule, _, Path.ofPath?_eq_python (by decide), found, by decide +kernel, rfl,
      rfl⟩
  rw [functionCode?, loaded]
  decide +kernel

/-- The outer function is found, in the file and among the facts. -/
theorem nestedSystem_records_code :
    Path.isAbsolute "/a.py" = true ∧ "f" ≠ "" ∧
      functionCode? nestedSystem "/a.py" "f" = some "def f():\n def f(): 0" ∧
      ∃ file function, (Repository.mk "/" {}).fileFacts? nestedSystem "/a.py" = some file ∧
        file.function? "f" = some function ∧ function.code = "def f():\n def f(): 0" := by
  refine ⟨rfl, by decide, nestedSystem_functionCode?, ?_⟩
  obtain ⟨recorded, -⟩ :=
    functionCode?_eq_some_iff_recorded nestedSystem "/a.py" rfl ⟨"/", {}⟩ "f" (by decide)
  exact (recorded _).mp nestedSystem_functionCode?

end CodeAtlas
