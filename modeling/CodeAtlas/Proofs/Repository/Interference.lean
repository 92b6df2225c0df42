/-
What one file can change in an atlas. Two file systems without links that agree but for one file
have the same files listed but for this one, and each of the others is analysed on its own, so all
records but that of the file are the same.

The edges are resolved among all files. A file has its part in an edge if it makes the call or
holds the last definition of what is called. All other calls find the same last definition with
and without the file, so their edges are the same.
-/
import Mathlib.Data.Set.Insert
import CodeAtlas.Proofs.Repository.Edges
import CodeAtlas.Proofs.Repository.RelativeRoot
import CodeAtlas.Proofs.Walk.Order
import CodeAtlas.Proofs.Walk.Selection

namespace CodeAtlas

open FileSystem Walk

/-! ### The edges that a file has no part in -/

/-- The name that an edge leads to: what its key holds behind the path and the dash. -/
def CallEdge.callee (edge : CallEdge) : String :=
  String.ofList (edge.target.toList.drop (edge.targetFile.toList.length + 1))

/-- Whether the last definition of a name is in the file at a path. -/
def isLastAt (files : List FileFacts) (path name : String) : Bool :=
  (lastDefinition? files name).any fun definition => definition.1.path == path

/-- Whether the file at a path has no part in an edge: neither the caller nor the last definition
of the callee is in it. -/
def CallEdge.isApartFrom (files : List FileFacts) (path : String) (edge : CallEdge) : Bool :=
  edge.sourceFile != path && !isLastAt files path edge.callee

theorem CallEdge.isApartFrom_iff {files : List FileFacts} {path : String} {edge : CallEdge} :
    edge.isApartFrom files path = true ↔
      edge.sourceFile ≠ path ∧ isLastAt files path edge.callee = false := by
  rw [isApartFrom, Bool.and_eq_true, bne_iff_ne, Bool.not_eq_true']

theorem CallEdge.callee_eq {edge : CallEdge} {name : String}
    (key : edge.target = edge.targetFile ++ "-" ++ name) : edge.callee = name := by
  have length : (edge.targetFile ++ "-").toList.length = edge.targetFile.toList.length + 1 := by
    rw [String.toList_append, List.length_append]
    rfl
  rw [callee, key, String.toList_append, ← length, List.drop_left, String.ofList_toList]

theorem flatMap_filter_eq {Item Result : Type} {keep : Item → Bool} {results : Item → List Result}
    {items : List Item} (nothing : ∀ item ∈ items, keep item = false → results item = []) :
    (items.filter keep).flatMap results = items.flatMap results := by
  induction items with
  | nil => rfl
  | cons item rest inductionHypothesis =>
    have later := inductionHypothesis fun other member => nothing other (.tail _ member)
    cases kept : keep item with
    | true =>
      rw [List.filter_cons_of_pos kept, List.flatMap_cons, List.flatMap_cons, later]
    | false =>
      rw [List.filter_cons_of_neg (by simp [kept]), List.flatMap_cons, nothing item (.head _) kept,
        List.nil_append, later]

theorem definitions_filter (keep : FileFacts → Bool) (files : List FileFacts) :
    definitions (files.filter keep) =
      (definitions files).filter fun definition => keep definition.1 := by
  induction files with
  | nil => rfl
  | cons file rest inductionHypothesis =>
    rw [definitions_cons, List.filter_append, List.filter_map, ← inductionHypothesis]
    cases kept : keep file <;> simp [definitions_cons, Function.comp_def, kept]

/-- A name whose last definition is not in the file at a path keeps it when the file is left
out. -/
theorem lastDefinition?_filter {files : List FileFacts} {path name : String}
    (elsewhere : isLastAt files path name = false) :
    lastDefinition? (files.filter (·.path ≠ path)) name = lastDefinition? files name := by
  rw [lastDefinition?, definitions_filter, List.filter_comm]
  cases found : lastDefinition? files name with
  | none =>
    rw [lastDefinition?, List.getLast?_eq_none_iff] at found
    rw [found]
    rfl
  | some definition =>
    have other : definition.1.path ≠ path := by simpa [isLastAt, found] using elsewhere
    obtain ⟨front, split⟩ := List.getLast?_eq_some_iff.mp found
    rw [split, List.filter_append, List.filter_cons_of_pos (by simpa using other), List.filter_nil,
      List.getLast?_concat]

/-- The edge for a call leads to the name that is called. -/
theorem callee_of_edgeToLast? {files : List FileFacts}
    (extracted : ∀ file ∈ files, file.IsExtracted) {file : FileFacts} {function : FunctionFacts}
    {callee : String} {edge : CallEdge}
    (emitted : edgeToLast? files file function callee = some edge) :
    edge.callee = callee := by
  obtain ⟨owner, target, last, -, rfl⟩ :=
    (edgeToLast?_eq_some_iff files file function callee edge).mp emitted
  obtain ⟨inFiles, inFunctions⟩ := mem_definitions_iff.mp last.mem_definitions
  exact CallEdge.callee_eq (last.named ▸ (extracted owner inFiles).keyed target inFunctions)

/-- The edges that the file at a path has no part in are for calls from the other files. -/
theorem filter_callEdges_eq_flatMap {files : List FileFacts} {path : String}
    {keep : CallEdge → Bool}
    (apart : ∀ edge, keep edge = true → edge.isApartFrom files path = true) :
    (callEdges files).filter keep =
      (files.filter (·.path ≠ path)).flatMap fun file => file.functions.flatMap fun function =>
        function.calls.names.filterMap fun callee =>
          (edgeToLast? files file function callee).filter keep := by
  have dropped : ∀ file ∈ files, decide (file.path ≠ path) = false →
      (file.functions.flatMap fun function => function.calls.names.filterMap fun callee =>
        (edgeToLast? files file function callee).filter keep) = [] := by
    intro file _ inFile
    refine List.flatMap_eq_nil_iff.mpr fun function _ => ?_
    refine List.filterMap_eq_nil_iff.mpr fun callee _ => ?_
    refine Option.filter_eq_none_iff.mpr fun edge emitted kept => ?_
    obtain ⟨owner, target, -, -, rfl⟩ :=
      (edgeToLast?_eq_some_iff files file function callee edge).mp emitted
    exact (CallEdge.isApartFrom_iff.mp (apart _ kept)).1 (by simpa using inFile)
  simp only [flatMap_filter_eq dropped, callEdges_eq_flatMap, List.filter_flatMap,
    List.filter_filterMap]

section Edges

variable {one other : List FileFacts} {path : String}
  (oneExtracted : ∀ file ∈ one, file.IsExtracted)
  (otherExtracted : ∀ file ∈ other, file.IsExtracted)
  (same : one.filter (·.path ≠ path) = other.filter (·.path ≠ path)) {keep : CallEdge → Bool}
  (apart : ∀ edge, keep edge = true →
    edge.isApartFrom one path = true ∧ edge.isApartFrom other path = true)
include oneExtracted otherExtracted same apart

/-- A call gives the same edge among both lists of files, if the file has no part in it. -/
theorem filter_edgeToLast? (file : FileFacts) (function : FunctionFacts) (callee : String) :
    (edgeToLast? one file function callee).filter keep =
      (edgeToLast? other file function callee).filter keep := by
  by_cases elsewhere : isLastAt one path callee = false ∧ isLastAt other path callee = false
  · have last : lastDefinition? one callee = lastDefinition? other callee := by
      rw [← lastDefinition?_filter elsewhere.1, same, lastDefinition?_filter elsewhere.2]
    rw [edgeToLast?, edgeToLast?, last]
  · -- Whatever edge the call gives in one of the lists, the file has a part in it.
    have dropped (edge : CallEdge) (called : edge.callee = callee) : ¬ keep edge = true := by
      intro kept
      obtain ⟨apartOne, apartOther⟩ := apart edge kept
      refine elsewhere ⟨?_, ?_⟩
      · exact called ▸ (CallEdge.isApartFrom_iff.mp apartOne).2
      · exact called ▸ (CallEdge.isApartFrom_iff.mp apartOther).2
    rw [Option.filter_eq_none_iff.mpr fun edge emitted =>
        dropped edge (callee_of_edgeToLast? oneExtracted emitted),
      Option.filter_eq_none_iff.mpr fun edge emitted =>
        dropped edge (callee_of_edgeToLast? otherExtracted emitted)]

theorem filter_callEdges : (callEdges one).filter keep = (callEdges other).filter keep := by
  rw [filter_callEdges_eq_flatMap fun edge kept => (apart edge kept).1,
    filter_callEdges_eq_flatMap fun edge kept => (apart edge kept).2, same]
  refine List.flatMap_congr fun file _ => List.flatMap_congr fun function _ => ?_
  exact List.filterMap_congr fun callee _ =>
    filter_edgeToLast? oneExtracted otherExtracted same apart file function callee

end Edges

/-! ### The files that are listed -/

namespace FileSystem

/-- The path of an entry leads to it from a root that is a directory, if the entry is no link. -/
theorem locate?_pathOf {system : FileSystem} {root : Path} {top : Location}
    (located : system.locate? root = some top) (directory : system.hasDirectory top = true)
    {route : Route} (isRoute : IsFileRoute route) {entry : Entry}
    (found : system.entry? (top ++ route) = some entry) (notLink : entry.isLink = false) :
    system.locate? (pathOf root route) = some (top ++ route) := by
  obtain ⟨nonempty, resolved⟩ := system.locate?_eq_some_iff.mp located
  rw [locate?, toOption_eq_some_iff, isRoute.locate_pathOf system nonempty]
  have onward : system.SameWay (namesIn root ++ route) (pieces root ++ route) := by
    obtain ⟨name, rest, rfl⟩ := List.exists_cons_of_ne_nil isRoute.nonempty
    rw [Path.namesIn_eq_filter]
    exact fun idle here => (system.sameWay_filter_isStep (pieces root) name rest idle here).symm
  have down : system.follow system.links top route = .ok (top ++ route) := by
    obtain ⟨front, name, rfl⟩ := route.eq_nil_or_concat'.resolve_left isRoute.nonempty
    rw [← List.append_assoc] at found
    rw [← system.follow_hasDirectory _ _ directory, ← List.append_assoc,
      system.follow_hasDirectory _ _ (system.placed_entry found).1,
      system.follow_name _ [] notLink found, follow_nil]
  rw [onward, follow_append_of_ok resolved, down]

/-- A root is a directory of a file system without links. -/
structure IsPlainRoot (system : FileSystem) (root : Path) (top : Location) : Prop where
  noLinks : system.HasNoLinks
  located : system.locate? root = some top
  directory : system.hasDirectory top = true

theorem AgreeBut.isPlainRoot {one other : FileSystem} {places : Set Location}
    (agree : one.AgreeBut other places) {root : Path} {top : Location}
    (plain : one.IsPlainRoot root top) (absolute : root.isAbsolute = true) :
    other.IsPlainRoot root top where
  noLinks location target link := by
    rw [← agree.elsewhere location (agree.symm.not_mem_of_isLink link)] at link
    exact plain.noLinks location target link
  located := by
    refine agree.locate?_eq_some plain.located ?_ fun inside => ?_
    · rw [startFrom, startFrom, if_pos absolute, if_pos absolute]
    · have outside := agree.not_hasDirectory inside
      rw [plain.directory] at outside
      cases outside
  directory := by rw [← agree.hasDirectory_eq, plain.directory]

namespace IsPlainRoot

variable {one : FileSystem} {root : Path} {top : Location} (plain : one.IsPlainRoot root top)
  {rules : Rules} {route : Route}
include plain

/-- Whether a route is listed depends on the file system only in what is at its end. -/
theorem mem_routes_iff :
    route ∈ routes one rules root ↔
      ∃ front name, route = front ++ [name] ∧ Descends rules front ∧
        (∃ content, one.entry? (top ++ route) = some (.file content)) ∧
        isHidden name = false ∧ rules.excludes route = false ∧ isSource name = true := by
  obtain ⟨folders, tour⟩ := exists_tour rules plain.located plain.directory
  constructor
  · intro member
    obtain ⟨folder, inFolders, name, named, verdict, rfl⟩ := tour.mem_routes_iff.mp member
    obtain ⟨place, descends⟩ := (tour.entered folder inFolders).descends plain.noLinks
    obtain ⟨found, passes⟩ := (verdict_eq_list_of_hasNoLinks plain.noLinks named).mp verdict
    rw [place, List.append_assoc] at found
    exact ⟨folder.route, name, rfl, descends, found, passes⟩
  · rintro ⟨front, name, rfl, descends, ⟨content, found⟩, passes⟩
    rw [← List.append_assoc] at found
    obtain ⟨folder, inFolders, rfl⟩ :=
      tour.exists_folder_of_descends plain.noLinks (one.placed_entry found).1 descends
    rw [← ((tour.entered folder inFolders).descends plain.noLinks).1] at found
    have named := one.mem_names_iff.mpr ⟨_, found⟩
    refine tour.mem_routes_iff.mpr ⟨folder, inFolders, name, named, ?_, rfl⟩
    exact (verdict_eq_list_of_hasNoLinks plain.noLinks named).mpr ⟨⟨content, found⟩, passes⟩

variable {other : FileSystem} {places : Set Location} (agree : one.AgreeBut other places)
  (plainOther : other.IsPlainRoot root top) (outside : top ++ route ∉ places)
include agree plainOther outside

theorem mem_routes_iff_of_agreeBut :
    route ∈ routes one rules root ↔ route ∈ routes other rules root := by
  rw [plain.mem_routes_iff, plainOther.mem_routes_iff, agree.elsewhere _ outside]

/-- The path of what is listed leads to the same file in both file systems. -/
theorem file?_eq_of_agreeBut (member : route ∈ routes one rules root) :
    one.file? (pathOf root route) = other.file? (pathOf root route) := by
  have isRoute := isFileRoute_of_mem_routes plain.located plain.directory member
  obtain ⟨front, name, -, -, ⟨content, found⟩, -⟩ := plain.mem_routes_iff.mp member
  have foundOther : other.entry? (top ++ route) = some (.file content) := by
    rw [← agree.elsewhere _ outside, found]
  rw [file?, file?, locate?_pathOf plain.located plain.directory isRoute found rfl,
    locate?_pathOf plainOther.located plainOther.directory isRoute foundOther rfl,
    Option.bind_some, Option.bind_some, fileAt?, fileAt?, found, foundOther]

end IsPlainRoot

end FileSystem

/-! ### The records -/

namespace Repository

/-- The facts about the file at a route, unless it is too large. -/
def record? (repository : Repository) (system : FileSystem) (route : Route) : Option FileFacts :=
  let path := pathOf repository.root route
  if repository.settings.maxFileSize.all (isSmall system · path) then
    (ParsedFile.load? system path).map (·.facts (Path.showComponents route))
  else none

theorem exists_facts_of_record? {repository : Repository} {system : FileSystem} {route : Route}
    {file : FileFacts} (recorded : repository.record? system route = some file) :
    ∃ parsed : ParsedFile, file = parsed.facts (Path.showComponents route) := by
  rw [record?] at recorded
  split at recorded
  · obtain ⟨parsed, -, rfl⟩ := Option.map_eq_some_iff.mp recorded
    exact ⟨parsed, rfl⟩
  · cases recorded

theorem record?_congr {repository : Repository} {one other : FileSystem} {route : Route}
    (same : one.file? (pathOf repository.root route) = other.file? (pathOf repository.root route)) :
    repository.record? one route = repository.record? other route := by
  have small (limit : Nat) : isSmall one limit (pathOf repository.root route) =
      isSmall other limit (pathOf repository.root route) := by
    rw [isSmall, isSmall, same]
  have loaded : ParsedFile.load? one (pathOf repository.root route) =
      ParsedFile.load? other (pathOf repository.root route) := by
    rw [ParsedFile.load?, ParsedFile.load?, same]
  simp only [record?, small, loaded]

theorem filter_filterMap_record? (repository : Repository) (system : FileSystem)
    (listed : List Route) (route : Route) :
    (listed.filterMap (repository.record? system)).filter (·.path ≠ Path.showComponents route) =
      (listed.filter (Path.showComponents · ≠ Path.showComponents route)).filterMap
        (repository.record? system) := by
  rw [List.filter_filterMap, List.filterMap_filter]
  refine List.filterMap_congr fun other _ => ?_
  cases recorded : repository.record? system other with
  | none => simp
  | some file =>
    obtain ⟨parsed, rfl⟩ := exists_facts_of_record? recorded
    rfl

/-- Without a limit to their number, the files of an atlas are the records of what is listed. -/
theorem atlas_eq_ok {system : FileSystem} {settings : Settings} {rules : Rules}
    (compiled : Rules.ofSettings settings = .ok rules) (unlimited : settings.maxFiles = none)
    {root : Path} (absolute : root.isAbsolute = true)
    (isRoute : ∀ route ∈ routes system rules root, IsFileRoute route) :
    (Repository.mk root settings).atlas system =
      .ok (.ofFiles ((routes system rules root).filterMap
        ((Repository.mk root settings).record? system))) := by
  have kept : (Repository.mk root settings).kept system (routes system rules root) =
      (routes system rules root).filter fun route =>
        settings.maxFileSize.all (isSmall system · (pathOf root route)) := by
    rw [Repository.kept, unlimited]
    cases settings.maxFileSize <;> simp
  rw [atlas_of_discover (discover_eq_ok compiled system root) fun route member =>
    fileFacts?_of_absolute system settings (isRoute route (mem_of_mem_kept member)) absolute]
  rw [kept, shownFacts, List.filterMap_filter]
  rfl

theorem isExtracted_of_mem_filterMap {repository : Repository} {system : FileSystem}
    {listed : List Route} {file : FileFacts}
    (member : file ∈ listed.filterMap (repository.record? system)) : file.IsExtracted := by
  obtain ⟨route, -, recorded⟩ := List.mem_filterMap.mp member
  obtain ⟨parsed, rfl⟩ := exists_facts_of_record? recorded
  exact parsed.isExtracted_facts _

end Repository

/-! ### All files but one -/

theorem notMem_of_showComponents_ne (top : Location) {listed route : Route}
    (different : Path.showComponents listed ≠ Path.showComponents route) :
    top ++ listed ∉ ({top ++ route} : Set Location) := fun inside =>
  different (congrArg _ (List.append_cancel_left (Set.mem_singleton_iff.mp inside)))

section OneFile

variable {one other : FileSystem} {root : Path} {top : Location} {route : Route}
  (agree : one.AgreeBut other {top ++ route}) (plain : one.IsPlainRoot root top)
  (plainOther : other.IsPlainRoot root top) (rules : Rules)
include agree plain plainOther

theorem filter_routes :
    (routes one rules root).filter (Path.showComponents · ≠ Path.showComponents route) =
      (routes other rules root).filter (Path.showComponents · ≠ Path.showComponents route) := by
  have asymmetric {first second : Route} (parts : PartsBefore first second) :
      ¬ PartsBefore second first := fun back => List.lt_asymm parts.lt back.lt
  refine eq_of_pairwise_of_mem_iff asymmetric ((pairwise_routes one rules root).filter _)
    ((pairwise_routes other rules root).filter _) fun listed => ?_
  rw [List.mem_filter, List.mem_filter]
  refine and_congr_left fun different => ?_
  exact plain.mem_routes_iff_of_agreeBut agree plainOther
    (notMem_of_showComponents_ne top (of_decide_eq_true different))

theorem filter_records (settings : Settings) :
    ((routes one rules root).filterMap ((Repository.mk root settings).record? one)).filter
        (·.path ≠ Path.showComponents route) =
      ((routes other rules root).filterMap ((Repository.mk root settings).record? other)).filter
        (·.path ≠ Path.showComponents route) := by
  rw [Repository.filter_filterMap_record?, Repository.filter_filterMap_record?,
    ← filter_routes agree plain plainOther]
  refine List.filterMap_congr fun listed member => Repository.record?_congr ?_
  obtain ⟨inRoutes, different⟩ := List.mem_filter.mp member
  exact plain.file?_eq_of_agreeBut agree plainOther
    (notMem_of_showComponents_ne top (of_decide_eq_true different)) inRoutes

end OneFile

/-- Two file systems without links that agree but for one file below an absolute root have
atlases with the same records but for that of the file, and with the same edges but for those
whose caller is in the file, or in one of the atlases the last definition of whose callee. -/
theorem atlas_same_but_for_file (one other : FileSystem) (noLinks : one.HasNoLinks)
    (settings : Settings) (rules : Rules) (compiled : Rules.ofSettings settings = .ok rules)
    (unlimited : settings.maxFiles = none) (root : Path) (absolute : root.isAbsolute = true)
    (top : Location) (located : one.locate? root = some top)
    (directory : one.hasDirectory top = true) (route : Route)
    (agree : one.AgreeBut other {top ++ route}) :
    ∃ first second, (Repository.mk root settings).atlas one = .ok first ∧
      (Repository.mk root settings).atlas other = .ok second ∧
      first.files.filter (·.path ≠ Path.showComponents route) =
        second.files.filter (·.path ≠ Path.showComponents route) ∧
      first.edges.filter (fun edge => edge.isApartFrom first.files (Path.showComponents route) &&
          edge.isApartFrom second.files (Path.showComponents route)) =
        second.edges.filter (fun edge => edge.isApartFrom first.files (Path.showComponents route) &&
          edge.isApartFrom second.files (Path.showComponents route)) := by
  have plain : one.IsPlainRoot root top := ⟨noLinks, located, directory⟩
  have plainOther := agree.isPlainRoot plain absolute
  have isRoute : ∀ route ∈ routes one rules root, IsFileRoute route :=
    fun route => isFileRoute_of_mem_routes located directory
  have isRouteOther : ∀ route ∈ routes other rules root, IsFileRoute route :=
    fun route => isFileRoute_of_mem_routes plainOther.located plainOther.directory
  have same := filter_records agree plain plainOther rules settings
  refine ⟨_, _, Repository.atlas_eq_ok compiled unlimited absolute isRoute,
    Repository.atlas_eq_ok compiled unlimited absolute isRouteOther, same, ?_⟩
  exact filter_callEdges (fun _ => Repository.isExtracted_of_mem_filterMap)
    (fun _ => Repository.isExtracted_of_mem_filterMap) same
    fun edge kept => Bool.and_eq_true_iff.mp kept

/-- The three modules, and one that defines anew what the first of them calls. -/
def fourModules : FileSystem := threeModules.insert [] "d.py" (.file calledModule)

theorem threeModules_hasNoLinks : threeModules.HasNoLinks := hasNoLinks_of_entries (by decide)

theorem threeModules_agreeBut : threeModules.AgreeBut fourModules {[] ++ [("d.py" : Name)]} where
  elsewhere location outside := by
    have entries : fourModules.entries =
        ([("d.py" : Name)], .file calledModule) :: threeModules.entries := rfl
    have different : (location == [("d.py" : Name)]) = false := by simpa using outside
    rw [FileSystem.entry?, FileSystem.entry?, entries, List.lookup_cons, different]
  oneFile location inside entry found := by
    rw [Set.mem_singleton_iff.mp inside] at found
    cases found
  otherFile location inside entry found := by
    rw [Set.mem_singleton_iff.mp inside] at found
    cases found
    exact ⟨calledModule, rfl⟩

/-- The records of the modules stay when the fourth is put beside them, and so do the edges that
it has no part in. -/
theorem fourModules_keeps_others :
    threeModules.HasNoLinks ∧ Rules.ofSettings {} = .ok {} ∧ Path.isAbsolute "/" = true ∧
      threeModules.locate? "/" = some [] ∧ threeModules.hasDirectory [] = true ∧
      threeModules.AgreeBut fourModules {[] ++ [("d.py" : Name)]} ∧
      ∃ atlas, (Repository.mk "/" {}).atlas fourModules = .ok atlas ∧
        atlas.files.filter (·.path ≠ "d.py") = [callingFacts, calledFacts] ∧
        (callEdges [callingFacts, calledFacts]).filter (fun edge =>
            edge.isApartFrom [callingFacts, calledFacts] "d.py" &&
              edge.isApartFrom atlas.files "d.py") =
          atlas.edges.filter (fun edge =>
            edge.isApartFrom [callingFacts, calledFacts] "d.py" &&
              edge.isApartFrom atlas.files "d.py") := by
  refine ⟨threeModules_hasNoLinks, rfl, rfl, threeModules.locate?_root, rfl,
    threeModules_agreeBut, ?_⟩
  obtain ⟨first, second, analysed, analysedFour, sameFiles, sameEdges⟩ :=
    atlas_same_but_for_file threeModules fourModules threeModules_hasNoLinks {} {} rfl rfl "/" rfl
      [] threeModules.locate?_root rfl ["d.py"] threeModules_agreeBut
  cases threeModules_atlas.symm.trans analysed
  rw [show Path.showComponents [("d.py" : Name)] = "d.py" by decide +kernel] at sameFiles sameEdges
  exact ⟨second, analysedFour, sameFiles.symm, sameEdges⟩

end CodeAtlas
