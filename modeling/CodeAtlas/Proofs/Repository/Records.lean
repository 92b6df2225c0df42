/-
The files of an atlas. Of the files that are found below an absolute root, those that hold any
text are recorded, in the order in which they are found, each as it would be on its own. A walk
lets a file pass for the extension of its name, and the analysis reads the extension of its whole
path and shows the path from the root; the two see the same name, so whatever is found is of a
known language. Different files are shown by different paths as far as their names are texts, and
two names that are not may be shown alike. The totals are sums of numbers that the records hold,
and these numbers are right.
-/
import CodeAtlas.Proofs.Repository.Discovery

namespace CodeAtlas

open FileSystem Walk

/-! ### What is extracted from a file -/

/-- What holds of the facts about a file, whatever its text and its tree are: its functions are
counted, have keys made of the path of the file and their names, and do not call themselves. -/
structure FileFacts.IsExtracted (file : FileFacts) : Prop where
  counted : file.totalFunctions = file.functions.length
  keyed : ∀ function ∈ file.functions, function.key = file.path ++ "-" ++ function.name
  notOwn : ∀ function ∈ file.functions, function.name ∉ function.calls.names

theorem Dialect.own_not_mem_calls (dialect : Dialect) (source : Syntax.Source) (own : String)
    (node : Syntax.Node) : own ∉ (dialect.calls source own node).names := by
  rw [Dialect.calls, NameSet.mem_names_ofList, List.mem_filter]
  simp

theorem ParsedFile.exists_of_mem_functions {file : ParsedFile} {path : String}
    {function : FunctionFacts} (member : function ∈ file.functions path) :
    ∃ name node, function = file.functionFacts path name node := by
  obtain ⟨node, -, extracted⟩ := List.mem_filterMap.mp member
  obtain ⟨name, -, rfl⟩ := Option.map_eq_some_iff.mp extracted
  exact ⟨name, node, rfl⟩

theorem ParsedFile.isExtracted_facts (file : ParsedFile) (path : String) :
    (file.facts path).IsExtracted where
  counted := rfl
  keyed function member := by
    obtain ⟨name, node, rfl⟩ := exists_of_mem_functions member
    rfl
  notOwn function member := by
    obtain ⟨name, node, rfl⟩ := exists_of_mem_functions member
    exact file.dialect.own_not_mem_calls file.source name node

theorem Language.language_dialect (language : Language) : language.dialect.language = language := by
  cases language <;> rfl

/-! ### Files with text -/

namespace FileSystem

variable (system : FileSystem)

/-- Whether a path leads to a file whose text holds a character that is not blank. -/
def hasText (path : Path) : Bool :=
  (system.file? path).any fun content => (Text.decode content.bytes).any (!Text.isBlank ·)

/-- A path leads to no file that could not be parsed as the language of the path: any text in the
file has its tree. -/
def IsParsed (path : Path) : Prop :=
  ∀ content language, system.file? path = some content → Language.ofPath? path = some language →
    system.hasText path = true → (content.trees language).isSome = true

end FileSystem

theorem FileSystem.hasText_eq_true_iff {system : FileSystem} {path : Path} :
    system.hasText path = true ↔
      ∃ content, system.file? path = some content ∧
        Text.isBlankText (Text.decode content.bytes) = false := by
  rw [hasText, Option.any_eq_true]
  refine exists_congr fun content => and_congr_right fun _ => ?_
  rw [← List.not_all_eq_any_not, Bool.not_eq_true']
  rfl

theorem FileSystem.isParsed_of_file? {system : FileSystem} {path : Path} {content : Content}
    {language : Language} (found : system.file? path = some content)
    (known : Language.ofPath? path = some language)
    (parsed : (content.trees language).isSome = true) : system.IsParsed path := by
  intro other second isOther isSecond _
  cases found.symm.trans isOther
  cases known.symm.trans isSecond
  exact parsed

theorem ParsedFile.load?_eq_some_iff {system : FileSystem} {path : Path} {file : ParsedFile} :
    ParsedFile.load? system path = some file ↔
      ∃ language content tree, Language.ofPath? path = some language ∧
        system.file? path = some content ∧
        Text.isBlankText (Text.decode content.bytes) = false ∧ content.trees language = some tree ∧
        file = ⟨language.dialect, ⟨Text.decode content.bytes⟩, tree⟩ := by
  unfold ParsedFile.load?
  constructor
  · intro loaded
    split at loaded
    next language content known found =>
      dsimp only at loaded
      split at loaded
      · cases loaded
      next notBlank =>
        obtain ⟨tree, parsed, rfl⟩ := Option.map_eq_some_iff.mp loaded
        exact ⟨language, content, tree, known, found, by simpa using notBlank, parsed, rfl⟩
    · cases loaded
  · rintro ⟨language, content, tree, known, found, notBlank, parsed, rfl⟩
    rw [known, found]
    dsimp only
    rw [if_neg (by simp [notBlank]), parsed]
    rfl

/-- A file of a known language can be analysed exactly if it holds any text. -/
theorem ParsedFile.isSome_load? {system : FileSystem} {path : Path} {language : Language}
    (known : Language.ofPath? path = some language) (parsed : system.IsParsed path) :
    (ParsedFile.load? system path).isSome = system.hasText path := by
  rw [Bool.eq_iff_iff, Option.isSome_iff_exists]
  constructor
  · rintro ⟨file, loaded⟩
    obtain ⟨-, content, -, -, found, notBlank, -⟩ := load?_eq_some_iff.mp loaded
    exact hasText_eq_true_iff.mpr ⟨content, found, notBlank⟩
  · intro text
    obtain ⟨content, found, notBlank⟩ := hasText_eq_true_iff.mp text
    obtain ⟨tree, treeOf⟩ := Option.isSome_iff_exists.mp (parsed content language found known text)
    exact ⟨_, load?_eq_some_iff.mpr
      ⟨language, content, tree, known, found, notBlank, treeOf, rfl⟩⟩

/-! ### The records -/

/-- Where a function has a value exactly at the elements that are kept, its values at those are
all its values. -/
theorem map_filter_eq_map_some {Element Value : Type} {keep : Element → Bool}
    {value? : Element → Option Value} {elements : List Element}
    (agree : ∀ element ∈ elements, (value? element).isSome = keep element) :
    (elements.filter keep).map value? = (elements.filterMap value?).map some := by
  induction elements with
  | nil => rfl
  | cons element rest inductionHypothesis =>
    have later := inductionHypothesis fun other member => agree other (.tail _ member)
    have here := agree element (.head _)
    cases found : value? element with
    | none =>
      rw [found] at here
      rw [List.filter_cons_of_neg (by simp [← here]), List.filterMap_cons_none found, later]
    | some value =>
      rw [found] at here
      rw [List.filter_cons_of_pos here.symm, List.filterMap_cons_some found, List.map_cons,
        List.map_cons, found, later]

theorem foldr_totalFunctions {files : List FileFacts}
    (counted : ∀ file ∈ files, file.totalFunctions = file.functions.length) :
    files.foldr (fun file total => file.totalFunctions + total) 0 =
      (files.flatMap fun file => file.functions.map fun function => (file, function)).length := by
  induction files with
  | nil => rfl
  | cons file rest inductionHypothesis =>
    rw [List.foldr_cons, List.flatMap_cons, List.length_append, List.length_map,
      counted file (.head _),
      inductionHypothesis fun other member => counted other (.tail _ member)]

/-- The files of an atlas with an absolute root are the facts about the files that are found and
hold any text, one for each and in their order. Each has the language of its extension, is shown
by the names below the root, and counts its own functions. What is shown is the path that these
names make if they are texts, and only then, and they are if no replacement is shown. A file is
the only one that is shown as it is, if that shows no names but texts. The totals of the atlas
count its files and functions. -/
theorem atlas_records_texts (system : FileSystem) (settings : Settings) (rules : Rules)
    (compiled : Rules.ofSettings settings = .ok rules) (root : Path)
    (absolute : root.isAbsolute = true) (top : Location)
    (located : system.locate? root = some top) (directory : system.hasDirectory top = true) :
    ∃ paths atlas, (Repository.mk root settings).discover system = .ok paths ∧
      (Repository.mk root settings).atlas system = .ok atlas ∧
      ((∀ path ∈ paths, system.IsParsed path) →
        (paths.filter system.hasText).map ((Repository.mk root settings).fileFacts? system) =
          atlas.files.map some) ∧
      (∀ path ∈ paths, ∀ file, (Repository.mk root settings).fileFacts? system path = some file →
        (∃ extension : String, path.extension? = some (Path.ofString extension) ∧
          Language.ofExtension? extension = some file.language) ∧
        (∃ names, path.components = root.components ++ names ∧
          file.path = Path.showComponents names ∧
          (Path.ofString file.path = Path.joinComponents names ↔
            ∀ name ∈ names, Text.IsText name) ∧
          (Text.replacement ∉ file.path.toList → ∀ name ∈ names, Text.IsText name)) ∧
        file.totalFunctions = file.functions.length) ∧
      (∀ file ∈ atlas.files, root.ShowsTexts paths file.path →
        atlas.files.filter (·.path = file.path) = [file]) ∧
      ((∀ shown, root.ShowsTexts paths shown) → (atlas.files.map FileFacts.path).Nodup) ∧
      atlas.totalFiles = atlas.files.length ∧ atlas.totalFunctions = atlas.functions.length := by
  obtain ⟨found, distinct, routes, discovered, analysed⟩ :=
    Repository.exists_found_of_absolute compiled absolute located directory
  have isRoute : ∀ route ∈ found, IsFileRoute route := fun route member => (routes route member).1
  have facts : ∀ route ∈ found,
      (Repository.mk root settings).fileFacts? system (pathOf root route) =
        (ParsedFile.load? system (pathOf root route)).map (·.facts (Path.showComponents route)) :=
    fun route member =>
      Repository.fileFacts?_of_absolute system settings (isRoute route member) absolute
  have files : shownFacts (fun route => ParsedFile.load? system (pathOf root route)) id found =
      (found.map (pathOf root)).filterMap ((Repository.mk root settings).fileFacts? system) := by
    rw [List.filterMap_map]
    exact (List.filterMap_congr facts).symm
  refine ⟨_, _, discovered, analysed, fun parsed => ?_, fun path member file extracted => ?_,
    fun file member texts => ?_, fun texts => ?_, rfl, ?_⟩
  · rw [show (Atlas.ofFiles (shownFacts _ id found)).files = _ from files]
    refine map_filter_eq_map_some fun path member => ?_
    obtain ⟨route, inFound, rfl⟩ := List.mem_map.mp member
    obtain ⟨-, language, known⟩ := routes route inFound
    rw [facts route inFound, Option.isSome_map, ParsedFile.isSome_load? known (parsed _ member)]
  · obtain ⟨route, inFound, rfl⟩ := List.mem_map.mp member
    rw [facts route inFound] at extracted
    obtain ⟨parsed, loaded, rfl⟩ := Option.map_eq_some_iff.mp extracted
    obtain ⟨language, content, tree, known, -, -, -, rfl⟩ :=
      ParsedFile.load?_eq_some_iff.mp loaded
    have below := isRoute route inFound
    refine ⟨?_, ⟨route, components_pathOf root below.named, rfl,
      Path.ofString_showComponents_eq_iff below.nonempty below.noSlash,
      Path.texts_of_replacement_not_mem⟩, (ParsedFile.isExtracted_facts _ _).counted⟩
    exact Path.ofPath?_eq_some_iff.mp (known.trans (congrArg some language.language_dialect.symm))
  · exact filter_path_shownFacts _ distinct isRoute member (texts.areTextsAt isRoute)
  · refine List.pairwise_map.mpr ((pairwise_shownFacts _ distinct isRoute).imp ?_)
    exact fun apart same => apart _ ((texts _).areTextsAt isRoute) same rfl
  · refine foldr_totalFunctions fun file member => ?_
    obtain ⟨route, -, extracted⟩ := List.mem_filterMap.mp member
    obtain ⟨parsed, -, rfl⟩ := Option.map_eq_some_iff.mp extracted
    exact (parsed.isExtracted_facts _).counted

theorem FileSystem.file?_of_top {system : FileSystem} {path : Path} {name : Name}
    {content : Content} (absolute : path.isAbsolute = true) (split : pieces path = [[], name])
    (found : system.entry? ([] ++ [name]) = some (.file content)) :
    system.file? path = some content := by
  have nonempty : path ≠ [] := by
    rintro rfl
    cases absolute
  have located : system.locate? path = some ([] ++ [name]) := by
    refine system.locate?_eq_some_iff.mpr ⟨nonempty, ?_⟩
    rw [LeadsTo, startFrom, if_pos absolute, split, system.follow_blank _ _ rfl (.inl rfl)]
    exact system.target?_eq_some_iff.mp (system.target?_of_not_link found rfl)
  rw [file?, located, Option.bind_some, fileAt?, found]

/-- A walk from the root directory that lists all entries there are lists their names. -/
theorem routes_of_listed {system : FileSystem} {rules : Rules}
    (listed : ∀ name ∈ system.names [],
      (⟨.top [], name⟩ : Pending).verdict system rules = .list) :
    routes system rules "/" = (system.names []).map fun name => [name] := by
  have runs (fresh : List Location) {names : List Name} (listed : ∀ name ∈ names,
      (⟨.top [], name⟩ : Pending).verdict system rules = .list) :
      Runs system rules fresh (names.map (⟨.top [], ·⟩)) (names.map fun name => [name]) [] := by
    induction names with
    | nil => exact .done fresh
    | cons name names inductionHypothesis =>
      exact .list (listed name (.head _))
        (inductionHypothesis fun other member => listed other (.tail _ member))
  rw [routes, system.locate?_root]
  dsimp only
  rw [if_pos (show system.hasDirectory [] = true from rfl)]
  exact (runs _ listed).run_eq

/-- A file that has been parsed as Python. -/
def pythonContent (bytes : List UInt8) (tree : Syntax.Tree) : Content where
  bytes := bytes
  trees language := if language = .python then some tree else none

/-- A module whose function calls one of another module. -/
def callingModule : Content :=
  pythonContent [0x64, 0x65, 0x66, 0x20, 0x66, 0x28, 0x29, 0x3A, 0x20, 0x67, 0x28, 0x29] <|
    .node ⟨"module", true, none, 0, 12⟩
      [.node ⟨"function_definition", true, none, 0, 12⟩
        [.node ⟨"def", false, none, 0, 3⟩ [],
          .node ⟨"identifier", true, some "name", 4, 5⟩ [],
          .node ⟨"parameters", true, some "parameters", 5, 7⟩
            [.node ⟨"(", false, none, 5, 6⟩ [], .node ⟨")", false, none, 6, 7⟩ []],
          .node ⟨":", false, none, 7, 8⟩ [],
          .node ⟨"block", true, some "body", 9, 12⟩
            [.node ⟨"expression_statement", true, none, 9, 12⟩
              [.node ⟨"call", true, none, 9, 12⟩
                [.node ⟨"identifier", true, some "function", 9, 10⟩ [],
                  .node ⟨"argument_list", true, some "arguments", 10, 12⟩
                    [.node ⟨"(", false, none, 10, 11⟩ [],
                      .node ⟨")", false, none, 11, 12⟩ []]]]]]]

/-- The other module. -/
def calledModule : Content :=
  pythonContent [0x64, 0x65, 0x66, 0x20, 0x67, 0x28, 0x29, 0x3A, 0x20, 0x30] <|
    .node ⟨"module", true, none, 0, 10⟩
      [.node ⟨"function_definition", true, none, 0, 10⟩
        [.node ⟨"def", false, none, 0, 3⟩ [],
          .node ⟨"identifier", true, some "name", 4, 5⟩ [],
          .node ⟨"parameters", true, some "parameters", 5, 7⟩
            [.node ⟨"(", false, none, 5, 6⟩ [], .node ⟨")", false, none, 6, 7⟩ []],
          .node ⟨":", false, none, 7, 8⟩ [],
          .node ⟨"block", true, some "body", 9, 10⟩
            [.node ⟨"expression_statement", true, none, 9, 10⟩
              [.node ⟨"integer", true, none, 9, 10⟩ []]]]]

/-- The two modules, and a third one that is a blank line. -/
def threeModules : FileSystem :=
  (((∅ : FileSystem).insert [] "c.py" (.file { bytes := [0x0A] })).insert [] "b.py"
    (.file calledModule)).insert [] "a.py" (.file callingModule)

theorem threeModules_names : threeModules.names [] = (["a.py", "b.py", "c.py"] : List Name) :=
  List.mergeSort_of_pairwise (by decide)

theorem threeModules_routes :
    routes threeModules {} "/" = ([["a.py"], ["b.py"], ["c.py"]] : List Route) := by
  have listed : ∀ name ∈ (["a.py", "b.py", "c.py"] : List Name),
      (⟨.top [], name⟩ : Pending).verdict threeModules {} = .list := by
    simp only [List.forall_mem_cons]
    exact ⟨Pending.verdict_of_source rfl (by decide) (Path.ofPath?_eq_python (by decide)),
      Pending.verdict_of_source rfl (by decide) (Path.ofPath?_eq_python (by decide)),
      Pending.verdict_of_source rfl (by decide) (Path.ofPath?_eq_python (by decide)), nofun⟩
  rw [← threeModules_names] at listed
  rw [routes_of_listed listed, threeModules_names]
  rfl

theorem threeModules_discover :
    (Repository.mk "/" {}).discover threeModules =
      .ok (["/a.py", "/b.py", "/c.py"] : List Path) := by
  have compiled : Rules.ofSettings {} = .ok {} := rfl
  rw [Repository.discover_eq_ok compiled, threeModules_routes]
  rfl

theorem threeModules_file?_calling : threeModules.file? "/a.py" = some callingModule := by
  have found : threeModules.entry? ([] ++ [("a.py" : Name)]) = some (.file callingModule) := rfl
  exact file?_of_top (by decide) (by decide) found

theorem threeModules_file?_called : threeModules.file? "/b.py" = some calledModule := by
  have found : threeModules.entry? ([] ++ [("b.py" : Name)]) = some (.file calledModule) := rfl
  exact file?_of_top (by decide) (by decide) found

theorem threeModules_file?_blank : threeModules.file? "/c.py" = some { bytes := [0x0A] } := by
  have found : threeModules.entry? ([] ++ [("c.py" : Name)]) = some (.file { bytes := [0x0A] }) :=
    rfl
  exact file?_of_top (by decide) (by decide) found

/-- Two of the modules are not blank, and the third one is. -/
theorem isBlankText_modules :
    Text.isBlankText (Text.decode callingModule.bytes) = false ∧
      Text.isBlankText (Text.decode calledModule.bytes) = false ∧
      Text.isBlankText (Text.decode [0x0A]) = true := by
  decide +kernel

theorem threeModules_hasText :
    threeModules.hasText "/a.py" = true ∧ threeModules.hasText "/b.py" = true ∧
      threeModules.hasText "/c.py" = false := by
  have ⟨calling, called, blank⟩ := isBlankText_modules
  refine ⟨hasText_eq_true_iff.mpr ⟨_, threeModules_file?_calling, calling⟩,
    hasText_eq_true_iff.mpr ⟨_, threeModules_file?_called, called⟩,
    Bool.eq_false_iff.mpr fun text => ?_⟩
  obtain ⟨content, found, notBlank⟩ := hasText_eq_true_iff.mp text
  cases threeModules_file?_blank.symm.trans found
  rw [blank] at notBlank
  cases notBlank

theorem threeModules_isParsed :
    ∀ path ∈ (["/a.py", "/b.py", "/c.py"] : List Path), threeModules.IsParsed path := by
  have ⟨_, _, blank⟩ := threeModules_hasText
  simp only [List.forall_mem_cons]
  refine ⟨isParsed_of_file? threeModules_file?_calling (Path.ofPath?_eq_python (by decide)) rfl,
    isParsed_of_file? threeModules_file?_called (Path.ofPath?_eq_python (by decide)) rfl,
    fun content language _ _ text => ?_, nofun⟩
  rw [blank] at text
  cases text

theorem threeModules_showsTexts (shown : String) :
    Path.ShowsTexts "/" ["/a.py", "/b.py", "/c.py"] shown := by
  have single {name : Name} (text : Text.IsText name) (names : List Name)
      (split : Path.top :: [name] = Path.components "/" ++ names) :
      ∀ other ∈ names, Text.IsText other := by
    cases split
    simpa using text
  simp only [Path.ShowsTexts, List.forall_mem_cons]
  exact ⟨fun _ => single (Text.isText_encode "a.py".toList),
    fun _ => single (Text.isText_encode "b.py".toList),
    fun _ => single (Text.isText_encode "c.py".toList), nofun⟩

/-- Of the three modules two are recorded. -/
theorem threeModules_records_two :
    Rules.ofSettings {} = .ok {} ∧ Path.isAbsolute "/" = true ∧
      threeModules.locate? "/" = some [] ∧ threeModules.hasDirectory [] = true ∧
      (∀ path ∈ (["/a.py", "/b.py", "/c.py"] : List Path), threeModules.IsParsed path) ∧
      (∀ shown, Path.ShowsTexts "/" (["/a.py", "/b.py", "/c.py"] : List Path) shown) ∧
      ∃ atlas, (Repository.mk "/" {}).discover threeModules =
          .ok (["/a.py", "/b.py", "/c.py"] : List Path) ∧
        (Repository.mk "/" {}).atlas threeModules = .ok atlas ∧
        [(Repository.mk "/" {}).fileFacts? threeModules "/a.py",
          (Repository.mk "/" {}).fileFacts? threeModules "/b.py"] = atlas.files.map some ∧
        (atlas.files.map FileFacts.path).Nodup := by
  refine ⟨rfl, rfl, threeModules.locate?_root, rfl, threeModules_isParsed,
    threeModules_showsTexts, ?_⟩
  obtain ⟨paths, atlas, discovered, analysed, recorded, -, -, distinct, -⟩ :=
    atlas_records_texts threeModules {} {} rfl "/" rfl [] threeModules.locate?_root rfl
  cases threeModules_discover.symm.trans discovered
  have ⟨calling, called, blank⟩ := threeModules_hasText
  have files := recorded threeModules_isParsed
  rw [List.filter_cons_of_pos calling, List.filter_cons_of_pos called,
    List.filter_cons_of_neg (by simp [blank])] at files
  exact ⟨atlas, discovered, analysed, files, distinct threeModules_showsTexts⟩

theorem FileSystem.file?_join_top {system : FileSystem} {name : Name} {content : Content}
    (isName : isEntryName name = true)
    (found : system.entry? ([] ++ [name]) = some (.file content)) :
    system.file? (Path.join "/" name) = some content := by
  have relative := Path.isAbsolute_of_isEntryName isName
  refine file?_of_top (Path.isAbsolute_join "/" name relative) ?_ found
  rw [Path.join, if_neg (by simp [relative]), if_pos (by decide)]
  exact (Path.splitSlashes_slash name).trans (congrArg _ (pieces_of_isEntryName isName))

/-- The facts about a parsed file right in the root directory, which is shown by its name. -/
theorem fileFacts?_of_top {system : FileSystem} {name : Name} {content : Content}
    {language : Language} {tree : Syntax.Tree} (isName : isEntryName name = true)
    (found : system.entry? ([] ++ [name]) = some (.file content))
    (known : Language.ofPath? name = some language)
    (notBlank : Text.isBlankText (Text.decode content.bytes) = false)
    (parsed : content.trees language = some tree) :
    (Repository.mk "/" {}).fileFacts? system (Path.join "/" name) =
      some ((⟨language.dialect, ⟨Text.decode content.bytes⟩, tree⟩ : ParsedFile).facts
        (Text.shown name)) := by
  have isRoute : IsFileRoute [name] := ⟨List.cons_ne_nil _ _, by simpa using isName⟩
  have loaded := ParsedFile.load?_eq_some_iff.mpr ⟨language, content, tree,
    (Path.ofPath?_join_name "/" isName).trans known, file?_join_top isName found, notBlank, parsed,
    rfl⟩
  have shown := Repository.fileFacts?_of_absolute system {} isRoute
    (show Path.isAbsolute "/" = true from rfl)
  rw [pathOf_cons, pathOf, List.foldl_nil, loaded, Path.showComponents_singleton] at shown
  exact shown

/-- The facts about the calling module. -/
def callingFacts : FileFacts :=
  ⟨"a.py", .python, [],
    [⟨"a.py-f", "f", [], "unknown", 1, 1, 1, 1, "def f(): g()", .ofList ["g"]⟩], 1, 1⟩

/-- The facts about the called module. -/
def calledFacts : FileFacts :=
  ⟨"b.py", .python, [],
    [⟨"b.py-g", "g", [], "unknown", 1, 1, 1, 1, "def g(): 0", .empty⟩], 1, 1⟩

section Modules

variable {system : FileSystem}

theorem fileFacts?_calling
    (found : system.entry? ([] ++ [("a.py" : Name)]) = some (.file callingModule)) :
    (Repository.mk "/" {}).fileFacts? system "/a.py" = some callingFacts := by
  have facts := fileFacts?_of_top (by decide) found (Path.ofPath?_eq_python (by decide))
    isBlankText_modules.1 rfl
  rw [show Path.join "/" "a.py" = "/a.py" by decide] at facts
  rw [facts]
  decide +kernel

theorem fileFacts?_called
    (found : system.entry? ([] ++ [("b.py" : Name)]) = some (.file calledModule)) :
    (Repository.mk "/" {}).fileFacts? system "/b.py" = some calledFacts := by
  have facts := fileFacts?_of_top (by decide) found (Path.ofPath?_eq_python (by decide))
    isBlankText_modules.2.1 rfl
  rw [show Path.join "/" "b.py" = "/b.py" by decide] at facts
  rw [facts]
  decide +kernel

theorem fileFacts?_blank
    (found : system.entry? ([] ++ [("c.py" : Name)]) = some (.file { bytes := [0x0A] })) :
    (Repository.mk "/" {}).fileFacts? system "/c.py" = none := by
  have content : system.file? "/c.py" = some { bytes := [0x0A] } :=
    file?_of_top (by decide) (by decide) found
  have nothing : ParsedFile.load? system "/c.py" = none := by
    rw [Option.eq_none_iff_forall_ne_some]
    intro file loaded
    obtain ⟨-, other, -, -, isOther, notBlank, -⟩ := ParsedFile.load?_eq_some_iff.mp loaded
    cases content.symm.trans isOther
    rw [isBlankText_modules.2.2] at notBlank
    cases notBlank
  have joined : Path.join "/" "/c.py" = "/c.py" := by decide
  rw [Repository.fileFacts?, joined, nothing]
  rfl

/-- The atlas of a root directory in which the three modules are all that is listed. -/
theorem atlas_of_modules
    (listed : routes system {} "/" = ([["a.py"], ["b.py"], ["c.py"]] : List Route))
    (calling : system.entry? ([] ++ [("a.py" : Name)]) = some (.file callingModule))
    (called : system.entry? ([] ++ [("b.py" : Name)]) = some (.file calledModule))
    (blank : system.entry? ([] ++ [("c.py" : Name)]) = some (.file { bytes := [0x0A] })) :
    (Repository.mk "/" {}).atlas system = .ok (.ofFiles [callingFacts, calledFacts]) := by
  have compiled : Rules.ofSettings {} = .ok {} := rfl
  have paths : ([["a.py"], ["b.py"], ["c.py"]] : List Route).map (pathOf "/") =
      (["/a.py", "/b.py", "/c.py"] : List Path) := by decide
  rw [Repository.atlas, Repository.discover_eq_ok compiled, listed, Repository.kept]
  dsimp only
  rw [paths, Repository.allFacts, List.filterMap_cons_some (fileFacts?_calling calling),
    List.filterMap_cons_some (fileFacts?_called called),
    List.filterMap_cons_none (fileFacts?_blank blank)]
  rfl

end Modules

theorem threeModules_atlas :
    (Repository.mk "/" {}).atlas threeModules = .ok (.ofFiles [callingFacts, calledFacts]) :=
  atlas_of_modules threeModules_routes rfl rfl rfl

/-! ### Names that are shown alike -/

/-- A name that is no text: a byte that starts no encoding, and an extension. -/
def brokenName (byte : UInt8) : Name := [byte, 0x2E, 0x70, 0x79]

/-- The called module, and the calling one under two names that are no texts. -/
def twinModules : FileSystem :=
  (((∅ : FileSystem).insert [] (brokenName 0xFF) (.file callingModule)).insert []
    (brokenName 0xFE) (.file callingModule)).insert [] "b.py" (.file calledModule)

/-- The paths of the three files. -/
def twinPaths : List Path :=
  [↑"/b.py", Path.join "/" (brokenName 0xFE), Path.join "/" (brokenName 0xFF)]

theorem twinModules_names :
    twinModules.names [] = ([↑"b.py", brokenName 0xFE, brokenName 0xFF] : List Name) :=
  List.mergeSort_of_pairwise (by decide)

theorem twinModules_discover : (Repository.mk "/" {}).discover twinModules = .ok twinPaths := by
  have compiled : Rules.ofSettings {} = .ok {} := rfl
  have listed : ∀ name ∈ ([↑"b.py", brokenName 0xFE, brokenName 0xFF] : List Name),
      (⟨.top [], name⟩ : Pending).verdict twinModules {} = .list := by
    simp only [List.forall_mem_cons]
    exact ⟨Pending.verdict_of_source rfl (by decide) (Path.ofPath?_eq_python (by decide)),
      Pending.verdict_of_source rfl (by decide) (Path.ofPath?_eq_python (by decide)),
      Pending.verdict_of_source rfl (by decide) (Path.ofPath?_eq_python (by decide)), nofun⟩
  rw [← twinModules_names] at listed
  rw [Repository.discover_eq_ok compiled, routes_of_listed listed, twinModules_names]
  rfl

/-- The facts about the calling module under either of the two names. -/
def twinFacts : FileFacts :=
  ⟨"\uFFFD.py", .python, [],
    [⟨"\uFFFD.py-f", "f", [], "unknown", 1, 1, 1, 1, "def f(): g()", .ofList ["g"]⟩], 1, 1⟩

section Twin

variable {byte : UInt8} (isTwin : byte = 0xFE ∨ byte = 0xFF)
include isTwin

theorem isEntryName_brokenName : isEntryName (brokenName byte) = true := by
  rcases isTwin with rfl | rfl <;> decide

theorem ofPath?_brokenName : Language.ofPath? (brokenName byte) = some .python := by
  rcases isTwin with rfl | rfl <;> exact Path.ofPath?_eq_python (by decide)

theorem shown_brokenName : Text.shown (brokenName byte) = "\uFFFD.py" := by
  rcases isTwin with rfl | rfl <;> decide +kernel

theorem twinModules_entry?_twin :
    twinModules.entry? ([] ++ [brokenName byte]) = some (.file callingModule) := by
  rcases isTwin with rfl | rfl <;> rfl

theorem twinModules_fileFacts?_twin :
    (Repository.mk "/" {}).fileFacts? twinModules (Path.join "/" (brokenName byte)) =
      some twinFacts := by
  rw [fileFacts?_of_top (isEntryName_brokenName isTwin) (twinModules_entry?_twin isTwin)
    (ofPath?_brokenName isTwin) isBlankText_modules.1 rfl, shown_brokenName isTwin]
  decide +kernel

theorem twinModules_isParsed_twin :
    twinModules.IsParsed (Path.join "/" (brokenName byte)) :=
  isParsed_of_file?
    (file?_join_top (isEntryName_brokenName isTwin) (twinModules_entry?_twin isTwin))
    ((Path.ofPath?_join_name _ (isEntryName_brokenName isTwin)).trans (ofPath?_brokenName isTwin))
    rfl

end Twin

theorem twinModules_entry?_called :
    twinModules.entry? ([] ++ [("b.py" : Name)]) = some (.file calledModule) := rfl

theorem twinModules_isParsed : ∀ path ∈ twinPaths, twinModules.IsParsed path := by
  simp only [twinPaths, List.forall_mem_cons]
  exact ⟨isParsed_of_file? (file?_of_top (by decide) (by decide) twinModules_entry?_called)
      (Path.ofPath?_eq_python (by decide)) rfl,
    twinModules_isParsed_twin (.inl rfl), twinModules_isParsed_twin (.inr rfl), nofun⟩

theorem twinModules_atlas :
    (Repository.mk "/" {}).atlas twinModules =
      .ok (.ofFiles [calledFacts, twinFacts, twinFacts]) := by
  rw [Repository.atlas, twinModules_discover]
  dsimp only
  rw [Repository.allFacts, twinPaths,
    List.filterMap_cons_some (fileFacts?_called twinModules_entry?_called),
    List.filterMap_cons_some (twinModules_fileFacts?_twin (.inl rfl)),
    List.filterMap_cons_some (twinModules_fileFacts?_twin (.inr rfl))]
  rfl

/-- Two files are shown by the same path, and by none that their names make. -/
theorem twinModules_shown_alike :
    Rules.ofSettings {} = .ok {} ∧ Path.isAbsolute "/" = true ∧
      twinModules.locate? "/" = some [] ∧ twinModules.hasDirectory [] = true ∧
      (Repository.mk "/" {}).discover twinModules = .ok twinPaths ∧
      (∀ path ∈ twinPaths, twinModules.IsParsed path) ∧
      ∃ atlas, (Repository.mk "/" {}).atlas twinModules = .ok atlas ∧
        ¬ (atlas.files.map FileFacts.path).Nodup ∧
        ∃ path ∈ twinPaths, ∃ file,
          (Repository.mk "/" {}).fileFacts? twinModules path = some file ∧
          ∀ names, path.components = Path.components "/" ++ names →
            Path.ofString file.path ≠ Path.joinComponents names := by
  have last : Path.join "/" (brokenName 0xFF) ∈ twinPaths := .tail _ (.tail _ (.head _))
  refine ⟨rfl, rfl, twinModules.locate?_root, rfl, twinModules_discover, twinModules_isParsed,
    _, twinModules_atlas, by decide, _, last, _, twinModules_fileFacts?_twin (.inr rfl),
    fun names split => ?_⟩
  have whole : (Path.join "/" (brokenName 0xFF)).components =
      Path.components "/" ++ [brokenName 0xFF] := by decide
  rw [List.append_cancel_left (split.symm.trans whole)]
  decide

end CodeAtlas
