/-
What an analysis leaves behind. The command can stop at many points: the path is no directory, the
settings cannot be read, a pattern is wrong, nothing is found, the output cannot be opened. At every
one of them the file system is as it was and nothing has been shown. It can also stop when there is
no room left for the output, and then the file for it has been emptied already and holds the
beginning of the facts. Where all went well that file holds the facts, however they are shown,
unless there is no file but a device that takes whatever is written to it.
-/
import CodeAtlas.Program
import CodeAtlas.Proofs.FileSystem.Writing
import CodeAtlas.Proofs.Repository.Edges
import CodeAtlas.Proofs.Text.Decoding

namespace CodeAtlas

open FileSystem

theorem Text.decode?_encode (text : List Char) : decode? (encode text) = some text :=
  decode?_eq_some_iff.mpr rfl

theorem Text.decode?_nil : decode? [] = some [] := decode?_encode []

theorem FileSystem.Written.readText {before after : FileSystem} {path : Path} {text : List Char}
    (written : Written before path (Text.encode text) after) : after.readText path = .ok text := by
  obtain ⟨place, located, filled⟩ := written
  have found : after.locate path = .ok place := toOption_eq_some_iff.mp located
  have read : after.read path = .ok (Text.encode text) := by
    rw [FileSystem.read, found]
    dsimp only
    rw [filled.present]
  rw [FileSystem.readText, read]
  dsimp only
  rw [Text.decode?_encode]

namespace Program

open CommandLine

/-! ### What is found -/

/-- The settings that an analysis starts from: those of the file that is given, or else those that
the working directory holds, or else the default ones. -/
def Loads (system : FileSystem) (arguments : Analyze) (loaded : Settings) : Prop :=
  match arguments.config with
  | some path => Settings.load system path = .ok loaded
  | none => ∃ found, Settings.discover system Path.here = .ok found ∧ loaded = found.getD {}

/-- An analysis finds some facts: the path is a directory, and the facts are those of the repository
there, under the settings that are loaded and in which the limits that are given come first. -/
structure Finds (system : FileSystem) (arguments : Analyze) (atlas : Atlas) : Prop where
  directory : system.isDirectory arguments.path = true
  analysed : ∃ loaded, Loads system arguments loaded ∧
    (Repository.mk arguments.path
      { loaded with
        threads := arguments.threads.or loaded.threads
        maxFiles := arguments.maxFiles.or loaded.maxFiles
        maxFileSize := arguments.maxFileSize.or loaded.maxFileSize }).atlas system = .ok atlas

theorem settingsFor_eq_ok_iff {system : FileSystem} {arguments : Analyze} {settings : Settings} :
    settingsFor system arguments = .ok settings ↔
      ∃ loaded, Loads system arguments loaded ∧ settings = override loaded arguments := by
  unfold settingsFor Loads
  cases arguments.config with
  | some path =>
    dsimp only
    cases Settings.load system path with
    | error failure => simp
    | ok loaded => simp [eq_comm]
  | none =>
    dsimp only
    cases Settings.discover system Path.here with
    | error failure => simp
    | ok found => simp [eq_comm]

theorem atlasFor_eq_ok_iff {system : FileSystem} {arguments : Analyze} {atlas : Atlas} :
    atlasFor system arguments = .ok atlas ↔ Finds system arguments atlas := by
  unfold atlasFor
  constructor
  · intro found
    split at found
    · cases found
    next directory =>
      split at found
      · cases found
      next settings known =>
        split at found
        · cases found
        next analysed =>
          cases found
          obtain ⟨loaded, loads, rfl⟩ := settingsFor_eq_ok_iff.mp known
          exact ⟨by simpa using directory, loaded, loads, analysed⟩
  · rintro ⟨directory, loaded, loads, analysed⟩
    have known := settingsFor_eq_ok_iff.mpr ⟨loaded, loads, rfl⟩
    rw [if_neg (by simp [directory]), known]
    dsimp only [override]
    rw [analysed]

/-! ### How an analysis ends -/

/-- The facts as a file holds them. -/
def factsBytes (atlas : Atlas) : List UInt8 := Text.encode (written atlas)

theorem factsBytes_ne_nil (atlas : Atlas) : factsBytes atlas ≠ [] := by
  intro empty
  have read := Text.decode?_encode (written atlas)
  rw [← factsBytes, empty, Text.decode?_nil] at read
  exact List.concat_ne_nil '\n' atlas.toJson.toList (Option.some.inj read).symm

/-- What saving the facts comes to, where there is a file given for them, and where there is
none. -/
theorem save_cases (system : FileSystem) (arguments : Analyze) (atlas : Atlas) :
    arguments.output = none ∧ save system arguments atlas = (system, none) ∨
      ∃ output, arguments.output = some output ∧
        Writes system output (factsBytes atlas) (save system arguments atlas) := by
  unfold save
  cases arguments.output with
  | none => exact .inl ⟨rfl, rfl⟩
  | some output => exact .inr ⟨output, rfl, writes_write system output (factsBytes atlas)⟩

/-- Facts that could not be saved have changed nothing, or have been cut off in the file that is
given for them. -/
theorem eq_or_written_of_save {system left : FileSystem} {arguments : Analyze} {atlas : Atlas}
    {failure : FileError} (notSaved : save system arguments atlas = (left, some failure)) :
    left = system ∨ ∃ output room, arguments.output = some output ∧ system.room = some room ∧
      room < (factsBytes atlas).length ∧
      Written system output ((factsBytes atlas).take room) left := by
  rcases save_cases system arguments atlas with ⟨-, done⟩ | ⟨output, given, writes⟩
  · cases done.symm.trans notSaved
  · rw [notSaved] at writes
    cases writes with
    | refused => exact .inl rfl
    | cut limited short written => exact .inr ⟨output, _, given, limited, short, written⟩

/-- Facts that have been saved are in the file that is given for them, or have gone to a sink. -/
theorem written_of_save {system saved : FileSystem} {arguments : Analyze} {atlas : Atlas}
    (isSaved : save system arguments atlas = (saved, none)) :
    (arguments.output = none → saved = system) ∧
      ∀ output, arguments.output = some output →
        Written system output (factsBytes atlas) saved ∨
          saved = system ∧ ∃ place, system.locate? output = some place ∧
            system.entry? place = some .sink := by
  rcases save_cases system arguments atlas with ⟨nothing, done⟩ | ⟨output, given, writes⟩
  · cases done.symm.trans isSaved
    refine ⟨fun _ => rfl, fun output given => ?_⟩
    rw [nothing] at given
    cases given
  · rw [isSaved] at writes
    refine ⟨fun nothing => ?_, fun other isOther => ?_⟩
    · rw [nothing] at given
      cases given
    · cases given.symm.trans isOther
      cases writes with
      | swallowed located sink => exact .inr ⟨rfl, _, located, sink⟩
      | whole _ written => exact .inl written

/-- How an analysis ends. Only the last way shows more than what is wrong. -/
inductive Ends (system : FileSystem) (painted : Bool) (arguments : Analyze) : Outcome → Prop
  | broken (message : List Char) (nothing : ∀ atlas, ¬ Finds system arguments atlas) :
      Ends system painted arguments (fail system broken message)
  | empty {atlas : Atlas} (message : List Char) (finds : Finds system arguments atlas)
      (noFiles : atlas.files = []) : Ends system painted arguments (fail system notFound message)
  | unwritable {atlas : Atlas} {left : FileSystem} {failure : FileError} (message : List Char)
      (finds : Finds system arguments atlas) (files : atlas.files ≠ [])
      (notSaved : save system arguments atlas = (left, some failure)) :
      Ends system painted arguments (fail left Program.broken message)
  | done {atlas : Atlas} {saved : FileSystem} (finds : Finds system arguments atlas)
      (files : atlas.files ≠ []) (isSaved : save system arguments atlas = (saved, none)) :
      Ends system painted arguments
        { exitCode := success, stdout := shown painted arguments atlas, system := saved }

theorem ends_analyze (system : FileSystem) (painted : Bool) (arguments : Analyze) :
    Ends system painted arguments (analyze system painted arguments) := by
  unfold analyze
  cases found : atlasFor system arguments with
  | error trouble =>
    refine .broken _ fun atlas finds => ?_
    rw [atlasFor_eq_ok_iff.mpr finds] at found
    cases found
  | ok atlas =>
    have finds := atlasFor_eq_ok_iff.mp found
    dsimp only
    by_cases empty : atlas.files = []
    · have isEmpty : atlas.isEmpty = true := List.isEmpty_iff.mpr empty
      rw [if_pos isEmpty]
      exact .empty _ finds empty
    · have notEmpty : ¬ atlas.isEmpty = true := fun isEmpty => empty (List.isEmpty_iff.mp isEmpty)
      rw [if_neg notEmpty]
      cases saving : save system arguments atlas with
      | mk left failure =>
        cases failure with
        | some failure => exact .unwritable _ finds empty saving
        | none => exact .done finds empty saving

theorem Finds.unique {system : FileSystem} {arguments : Analyze} {one other : Atlas}
    (first : Finds system arguments one) (second : Finds system arguments other) : one = other := by
  have found := atlasFor_eq_ok_iff.mpr first
  rw [atlasFor_eq_ok_iff.mpr second] at found
  exact (Except.ok.inj found).symm

namespace Ends

variable {system : FileSystem} {painted : Bool} {arguments : Analyze} {outcome : Outcome}
  (ends : Ends system painted arguments outcome)
include ends

theorem exitCode_cases :
    outcome.exitCode = 0 ∨ outcome.exitCode = 1 ∨ outcome.exitCode = 2 := by
  cases ends with
  | broken | unwritable => exact .inr (.inr rfl)
  | empty => exact .inr (.inl rfl)
  | done => exact .inl rfl

theorem stdout_eq_nil (failed : outcome.exitCode ≠ 0) : outcome.stdout = [] := by
  cases ends with
  | broken | empty | unwritable => rfl
  | done => exact absurd rfl failed

theorem exitCode_eq_one_iff :
    outcome.exitCode = 1 ↔ ∃ atlas, Finds system arguments atlas ∧ atlas.files = [] := by
  cases ends with
  | broken message nothing =>
    exact iff_of_false (by decide : (2 : Nat) ≠ 1) fun ⟨atlas, finds, _⟩ => nothing atlas finds
  | empty message finds noFiles => exact iff_of_true rfl ⟨_, finds, noFiles⟩
  | unwritable message finds files =>
    exact iff_of_false (by decide : (2 : Nat) ≠ 1)
      fun ⟨other, found, noFiles⟩ => files (finds.unique found ▸ noFiles)
  | done finds files =>
    exact iff_of_false (by decide : (0 : Nat) ≠ 1)
      fun ⟨other, found, noFiles⟩ => files (finds.unique found ▸ noFiles)

theorem unchanged (nothingFound : outcome.exitCode = 1) : outcome.system = system := by
  cases ends with
  | broken | unwritable => exact absurd nothingFound (by decide : (2 : Nat) ≠ 1)
  | empty => rfl
  | done => exact absurd nothingFound (by decide : (0 : Nat) ≠ 1)

/-- Trouble leaves all files as they were, unless it is that there is no room for the facts. -/
theorem unchanged_or_cut (trouble : outcome.exitCode = 2) :
    outcome.system = system ∨ ∃ atlas output room, Finds system arguments atlas ∧
      atlas.files ≠ [] ∧ arguments.output = some output ∧ system.room = some room ∧
      room < (factsBytes atlas).length ∧
      Written system output ((factsBytes atlas).take room) outcome.system := by
  cases ends with
  | broken => exact .inl rfl
  | empty => exact absurd trouble (by decide : (1 : Nat) ≠ 2)
  | unwritable message finds files notSaved =>
    rcases eq_or_written_of_save notSaved with same | ⟨output, room, cut⟩
    · exact .inl same
    · exact .inr ⟨_, output, room, finds, files, cut⟩
  | done => exact absurd trouble (by decide : (0 : Nat) ≠ 2)

theorem exists_saved (well : outcome.exitCode = 0) :
    ∃ atlas, Finds system arguments atlas ∧ atlas.files ≠ [] ∧
      save system arguments atlas = (outcome.system, none) := by
  cases ends with
  | broken | unwritable => exact absurd well (by decide : (2 : Nat) ≠ 0)
  | empty => exact absurd well (by decide : (1 : Nat) ≠ 0)
  | done finds files isSaved => exact ⟨_, finds, files, isSaved⟩

/-- Where some files are found, all depends on whether the facts can be saved. -/
theorem system_eq_save {atlas : Atlas} (finds : Finds system arguments atlas)
    (files : atlas.files ≠ []) :
    outcome.system = (save system arguments atlas).1 ∧
      outcome.exitCode = if (save system arguments atlas).2.isNone then 0 else 2 := by
  cases ends with
  | broken message nothing => exact absurd finds (nothing atlas)
  | empty message found noFiles => exact absurd (found.unique finds ▸ noFiles) files
  | unwritable message found _ notSaved =>
    rw [← found.unique finds, notSaved]
    exact ⟨rfl, rfl⟩
  | done found _ isSaved =>
    rw [← found.unique finds, isSaved]
    exact ⟨rfl, rfl⟩

end Ends

/-- Three modules, a device that takes everything, and some room for a file. -/
def modulesAndSink (room : Option Nat) : FileSystem :=
  { ((((∅ : FileSystem).insert [] "null" .sink).insert [] "c.py" (.file { bytes := [0x0A] })).insert
      [] "b.py" (.file calledModule)).insert [] "a.py" (.file callingModule) with room := room }

/-- The modules are analysed, a report is shown, and the facts go to a file. -/
def factsTo (output : Path) : Analyze :=
  { path := "/", format := .pretty, output := some output, threads := some 2 }

section Examples

variable (room : Option Nat)

theorem modulesAndSink_entry?_null :
    entry? (modulesAndSink room) ([] ++ [("null" : Name)]) = some .sink := rfl

theorem modulesAndSink_routes :
    Walk.routes (modulesAndSink room) {} "/" =
      ([["a.py"], ["b.py"], ["c.py"]] : List Walk.Route) := by
  have sorted : (["a.py", "b.py", "c.py", "null"] : List Name).Pairwise
      fun left right => decide (left ≤ right) = true := by decide
  have names : (modulesAndSink room).names [] = (["a.py", "b.py", "c.py", "null"] : List Name) :=
    List.mergeSort_of_pairwise sorted
  have pending : Walk.inside (modulesAndSink room) (.top []) =
      [⟨.top [], "a.py"⟩, ⟨.top [], "b.py"⟩, ⟨.top [], "c.py"⟩, ⟨.top [], "null"⟩] :=
    congrArg (List.map _) names
  have calling : (⟨.top [], "a.py"⟩ : Walk.Pending).verdict (modulesAndSink room) {} = .list :=
    Walk.Pending.verdict_of_source rfl (by decide) (Path.ofPath?_eq_python (by decide))
  have called : (⟨.top [], "b.py"⟩ : Walk.Pending).verdict (modulesAndSink room) {} = .list :=
    Walk.Pending.verdict_of_source rfl (by decide) (Path.ofPath?_eq_python (by decide))
  have blank : (⟨.top [], "c.py"⟩ : Walk.Pending).verdict (modulesAndSink room) {} = .list :=
    Walk.Pending.verdict_of_source rfl (by decide) (Path.ofPath?_eq_python (by decide))
  have null : (⟨.top [], "null"⟩ : Walk.Pending).verdict (modulesAndSink room) {} = .pass := by
    rw [Walk.Pending.verdict]
    dsimp only [Walk.Folder.top]
    rw [target?_of_not_link _ (modulesAndSink_entry?_null room) rfl]
    dsimp only
    rw [modulesAndSink_entry?_null]
    exact ite_self _
  rw [Walk.routes, locate?_root]
  dsimp only
  rw [if_pos (show (modulesAndSink room).hasDirectory [] = true from rfl), pending]
  exact (Walk.Runs.list calling (.list called (.list blank (.pass null (.done _))))).run_eq

theorem modulesAndSink_locate?_missing {path : Path} {blank : Name} (name : Name)
    (start : startFrom path [] = []) (split : pieces path = [blank, name])
    (isBlank : blank = [] ∨ blank = Path.here) (isName : isEntryName name = true)
    (missing : entry? (modulesAndSink room) ([] ++ [name]) = none) :
    (modulesAndSink room).locate? path = none := by
  obtain ⟨nameNonempty, notDot, notAbove, -⟩ := isEntryName_iff.mp isName
  rw [Option.eq_none_iff_forall_ne_some]
  intro place located
  obtain ⟨-, found⟩ := (modulesAndSink room).locate?_eq_some_iff.mp located
  rw [LeadsTo, show (modulesAndSink room).current = [] from rfl, start, split,
    follow_blank _ _ _ rfl isBlank,
    follow_missing _ _ _ rfl (not_or.mpr ⟨nameNonempty, notDot⟩) notAbove missing] at found
  cases found

theorem modulesAndSink_discover_settings :
    Settings.discover (modulesAndSink room) Path.here = .ok none := by
  have first : (modulesAndSink room).isFile "./archmap.yaml" = false := by
    rw [isFile, file?, modulesAndSink_locate?_missing room "archmap.yaml" (by decide) (by decide)
      (.inr rfl) (by decide) rfl]
    rfl
  have second : (modulesAndSink room).isFile "./.archmap.yaml" = false := by
    rw [isFile, file?, modulesAndSink_locate?_missing room ".archmap.yaml" (by decide) (by decide)
      (.inr rfl) (by decide) rfl]
    rfl
  have nothing : Settings.find? (modulesAndSink room) Path.here = none := by
    show (["./archmap.yaml", "./.archmap.yaml"] : List Path).find? (modulesAndSink room).isFile =
      none
    rw [List.find?_cons, first, List.find?_cons, second, List.find?_nil]
  rw [Settings.discover, nothing]

theorem modulesAndSink_finds (output : Path) :
    Finds (modulesAndSink room) (factsTo output) (.ofFiles [callingFacts, calledFacts]) where
  directory := by
    show ((modulesAndSink room).locate? "/").any (modulesAndSink room).hasDirectory = true
    rw [locate?_root]
    rfl
  analysed := ⟨{}, ⟨none, modulesAndSink_discover_settings room, rfl⟩,
    atlas_of_modules (modulesAndSink_routes room) rfl rfl rfl⟩

theorem modulesAndSink_locate?_null :
    (modulesAndSink room).locate? "/null" = some ([] ++ [("null" : Name)]) := by
  refine (modulesAndSink room).locate?_eq_some_iff.mpr ⟨by decide, ?_⟩
  rw [LeadsTo, show startFrom "/null" (modulesAndSink room).current = [] from rfl,
    show pieces "/null" = [[], ("null" : Name)] by decide, follow_blank _ _ _ rfl (.inl rfl),
    follow_name _ _ _ rfl (modulesAndSink_entry?_null room), follow_nil]

theorem modulesAndSink_readText_null : (modulesAndSink room).readText "/null" = .ok [] := by
  have read : (modulesAndSink room).read "/null" = .ok [] := by
    rw [FileSystem.read, toOption_eq_some_iff.mp (modulesAndSink_locate?_null room)]
    rfl
  rw [FileSystem.readText, read]
  dsimp only
  rw [Text.decode?_nil]

/-- A name right in the root directory is opened where nothing or a sink stands there. -/
theorem modulesAndSink_openFile {path : Path} (name : Name) (absolute : path.isAbsolute = true)
    (split : pieces path = [[], name]) (isName : isEntryName name = true)
    (unused : entry? (modulesAndSink room) ([] ++ [name]) = none ∨
      entry? (modulesAndSink room) ([] ++ [name]) = some .sink) :
    (modulesAndSink room).openFile path =
      .ok ((modulesAndSink room).fill ([] ++ [name]) [], [] ++ [name]) := by
  obtain ⟨nonempty, notDot, notAbove, -⟩ := isEntryName_iff.mp isName
  have filled : ¬ name.isEmpty = true := by simpa using nonempty
  have approached (idle : List Location) :
      (modulesAndSink room).approach idle [] [[], name] = .ok ([], name) := by
    have backwards : [[], name].reverse.dropWhile (·.isEmpty) = [name, []] :=
      List.dropWhile_cons_of_neg filled
    rw [approach, backwards]
    dsimp only
    rw [List.reverse_singleton, follow_blank _ _ _ rfl (.inl rfl), follow_nil]
    dsimp only
    rw [show (modulesAndSink room).hasDirectory [] = true from rfl, if_neg (by decide),
      if_neg (by simp [notDot, notAbove, nonempty])]
  have placed : (modulesAndSink room).place (modulesAndSink room).links [] [[], name] =
      .ok ([] ++ [name]) := by
    rw [place, approached]
    dsimp only
    rcases unused with none | sink
    · rw [none]
    · rw [sink]
  have present : ¬ path.isEmpty = true := by
    intro empty
    rw [List.isEmpty_iff.mp empty] at absolute
    cases absolute
  rw [openFile, if_neg present, startFrom, if_pos absolute, split, placed]

theorem modulesAndSink_write_null (bytes : List UInt8) :
    (modulesAndSink room).write "/null" bytes = (modulesAndSink room, none) := by
  rw [write, modulesAndSink_openFile room "null" rfl (by decide) (by decide) (.inr rfl)]
  rfl

theorem modulesAndSink_locate?_facts : (modulesAndSink room).locate? "/facts.json" = none :=
  modulesAndSink_locate?_missing room "facts.json" rfl (by decide) (.inl rfl) (by decide) rfl

/-- The file for the facts is made, and the room decides how much of them is written. -/
theorem modulesAndSink_write_facts (bytes : List UInt8) :
    (∃ after, (modulesAndSink room).write "/facts.json" bytes = (after, none) ∧
        ∀ size, room = some size → bytes.length ≤ size) ∨
      ∃ size after, (modulesAndSink room).write "/facts.json" bytes = (after, some .noSpace) ∧
        room = some size ∧
        Written (modulesAndSink room) "/facts.json" (bytes.take size) after := by
  have writes := writes_write (modulesAndSink room) "/facts.json" bytes
  generalize (modulesAndSink room).write "/facts.json" bytes = result at writes ⊢
  cases writes with
  | refused closed =>
    rw [modulesAndSink_openFile room "facts.json" rfl (by decide) (by decide) (.inl rfl)] at closed
    cases closed
  | swallowed located =>
    rw [modulesAndSink_locate?_facts] at located
    cases located
  | whole fits => exact .inl ⟨_, rfl, fits⟩
  | cut limited short written => exact .inr ⟨_, _, rfl, limited, written⟩

end Examples

end Program

end CodeAtlas
