/-
What the commands do. A command looks at a file system and has an outcome: what it writes to
the two streams, the code it ends with, and the file system behind it, which differs at most in
the file that the facts are written to, also where they could not be written to its end.
-/
import CodeAtlas.CommandLine
import CodeAtlas.Report
import CodeAtlas.Repository
import CodeAtlas.Wire

namespace CodeAtlas.Program

open CodeAtlas.CommandLine

/-- What a command did. -/
structure Outcome where
  exitCode : Nat
  stdout : List Char := []
  stderr : List Char := []
  system : FileSystem

/-- The exit code of a command that did what it should. -/
def success : Nat := 0

/-- The exit code of a command that found nothing. -/
def notFound : Nat := 1

/-- The exit code of a command that could not do what it should. -/
def broken : Nat := 2

/-- Why a command could not do what it should. -/
inductive Trouble where
  | notDirectory (path : Path)
  | noSuchFile (path : Path)
  | unsupported (path : Path)
  | failed (failure : Failure)
  | unwritable (failure : FileError)
deriving DecidableEq, Repr

/-- The words for a trouble. -/
def Trouble.message : Trouble → String
  | .notDirectory path => "not a directory: " ++ Text.shown path
  | .noSuchFile path => "no such file: " ++ Text.shown path
  | .unsupported path => "unsupported file extension: " ++ Text.shown path
  | .failed failure => failure.message
  | .unwritable failure => failure.message

/-- A line about an error. -/
def errorLine (message : List Char) : List Char := "Error: ".toList ++ message ++ ['\n']

/-- An outcome with an error and no other effect. -/
def fail (system : FileSystem) (exitCode : Nat) (message : List Char) : Outcome :=
  { exitCode := exitCode, stderr := errorLine message, system := system }

/-! ### Analysing -/

/-- Settings of which some are overridden. -/
def override (settings : Settings) (arguments : Analyze) : Settings :=
  { settings with
    threads := arguments.threads.or settings.threads
    maxFiles := arguments.maxFiles.or settings.maxFiles
    maxFileSize := arguments.maxFileSize.or settings.maxFileSize }

/-- The settings for an analysis: those of the file that is given, or else those of the working
directory, of which some may be overridden. -/
def settingsFor (system : FileSystem) (arguments : Analyze) : Except Failure Settings :=
  match arguments.config with
  | some path =>
    match Settings.load system path with
    | .error failure => .error failure
    | .ok settings => .ok (override settings arguments)
  | none =>
    match Settings.discover system Path.here with
    | .error failure => .error failure
    | .ok found => .ok (override (found.getD {}) arguments)

/-- The facts for an analysis. -/
def atlasFor (system : FileSystem) (arguments : Analyze) : Except Trouble Atlas :=
  if !system.isDirectory arguments.path then .error (.notDirectory arguments.path)
  else
    match settingsFor system arguments with
    | .error failure => .error (.failed failure)
    | .ok settings =>
      match (Repository.mk arguments.path settings).atlas system with
      | .error failure => .error (.failed failure)
      | .ok atlas => .ok atlas

/-- The facts as they are written. -/
def written (atlas : Atlas) : List Char := atlas.toJson.toList ++ ['\n']

/-- What is written to the standard output: a report, or the facts unless they go to a file. -/
def shown (painted : Bool) (arguments : Analyze) (atlas : Atlas) : List Char :=
  match arguments.format with
  | .pretty => Report.text painted (Text.shown arguments.path) atlas
  | .json => if arguments.output.isSome then [] else written atlas

/-- Writes the facts to the file that is given for them. -/
def save (system : FileSystem) (arguments : Analyze) (atlas : Atlas) :
    FileSystem × Option FileError :=
  match arguments.output with
  | none => (system, none)
  | some path => system.write path (Text.encode (written atlas))

/-- Analyses a directory. -/
def analyze (system : FileSystem) (painted : Bool) (arguments : Analyze) : Outcome :=
  match atlasFor system arguments with
  | .error trouble => fail system broken trouble.message.toList
  | .ok atlas =>
    if atlas.isEmpty then
      fail system notFound ("no source files found in " ++ Text.shown arguments.path).toList
    else
      match save system arguments atlas with
      | (left, some failure) => fail left broken (Trouble.unwritable failure).message.toList
      | (saved, none) =>
        { exitCode := success, stdout := shown painted arguments atlas, system := saved }

/-! ### Showing a function -/

/-- Shows the code of a function. -/
def showFunction (system : FileSystem) (arguments : Show) : Outcome :=
  if (Language.ofPath? arguments.file).isNone then
    fail system broken (Trouble.unsupported arguments.file).message.toList
  else if !system.isFile arguments.file then
    fail system broken (Trouble.noSuchFile arguments.file).message.toList
  else
    match functionCode? system arguments.file arguments.name with
    | some code => { exitCode := success, stdout := code.toList ++ ['\n'], system := system }
    | none =>
      fail system notFound
        ("function ".toList ++ Text.quote arguments.name.toList ++ " not found in ".toList ++
          Text.lossy arguments.file)

/-- Runs a command. -/
def run (system : FileSystem) (painted : Bool) : Command → Outcome
  | .analyze arguments => analyze system painted arguments
  | .function arguments => showFunction system arguments

end CodeAtlas.Program
