/-
The arguments of a command. An argument is an option with its value, or stands for itself at
its position. An option may be given once. Its value is looked at when the next argument takes
effect, and an argument that is not known is refused before that.
-/
import CodeAtlas.Path

namespace CodeAtlas.CommandLine

/-! ### Commands -/

/-- How the facts about a repository are shown. -/
inductive Format where
  | json
  | pretty
deriving DecidableEq, Repr

/-- What to analyse and where to put the facts. -/
structure Analyze where
  path : Path
  config : Option Path := none
  format : Format := .json
  output : Option Path := none
  threads : Option Nat := none
  maxFiles : Option Nat := none
  maxFileSize : Option Nat := none
deriving DecidableEq, Repr

/-- Which function to show. -/
structure Show where
  file : Path
  name : String
deriving DecidableEq, Repr

/-- What to do. -/
inductive Command where
  | analyze (arguments : Analyze)
  | function (arguments : Show)
deriving DecidableEq, Repr

/-- Why there is no command. -/
inductive Refusal where
  | help
  | version
  | nothingGiven
  | unknownCommand
  | unknownArgument
  | unwantedValue
  | invalidValue
  | invalidNumber
  | repeatedOption
  | missingArgument
deriving DecidableEq, Repr

/-- Help and version are what was asked for, all else is an error. -/
def Refusal.exitCode : Refusal → Nat
  | .help | .version => 0
  | _ => 2

/-! ### Slots -/

/-- What a value is for. -/
inductive Slot where
  | path
  | config
  | format
  | output
  | threads
  | maxFiles
  | maxFileSize
  | file
  | name
deriving DecidableEq, Repr

/-- The options and positions of a command. -/
structure Form where
  options : List (String × Option Char × Slot)
  positions : List Slot

/-- The form of the command that analyses. -/
def analyzeForm : Form where
  options :=
    [("config", some 'c', .config), ("format", some 'f', .format),
      ("output", some 'o', .output), ("threads", some 'j', .threads),
      ("max-files", none, .maxFiles), ("max-file-size", none, .maxFileSize)]
  positions := [.path]

/-- The form of the command that shows a function. -/
def functionForm : Form where
  options := []
  positions := [.file, .name]

/-- A number below 2^64 in decimal digits, perhaps with a plus sign. -/
def number? (text : String) : Option Nat :=
  let digits :=
    match text.toList with
    | '+' :: rest => rest
    | rest => rest
  if digits.isEmpty || !digits.all (fun char => '0' ≤ char && char ≤ '9') then none
  else
    let value := digits.foldl (fun total char => total * 10 + (char.toNat - '0'.toNat)) 0
    if value < UInt64.size then some value else none

/-- The format with a name. -/
def format? : String → Option Format
  | "json" => some .json
  | "pretty" => some .pretty
  | _ => none

/-- Checks a value for its slot: a path is not empty, a number is a number. -/
def Slot.check (slot : Slot) (value : String) : Except Refusal Unit :=
  match slot with
  | .path | .config | .output | .file =>
    if value.isEmpty then .error .invalidValue else .ok ()
  | .format => if (format? value).isSome then .ok () else .error .invalidValue
  | .threads | .maxFiles | .maxFileSize =>
    if (number? value).isSome then .ok () else .error .invalidNumber
  | .name => .ok ()

/-! ### Filling slots -/

/-- The slots that are filled, and the one that comes next. -/
structure Filling where
  filled : List (Slot × String) := []
  /-- A slot whose value has not been looked at, or is still to come. -/
  pending : Option (Slot × Option String) := none
  /-- The positions that are still open. -/
  positions : List Slot

namespace Filling

/-- Fills the pending slot. -/
def settle (filling : Filling) : Except Refusal Filling :=
  match filling.pending with
  | none => .ok filling
  | some (_, none) => .error .invalidValue
  | some (slot, some value) =>
    if (filling.filled.lookup slot).isSome then .error .repeatedOption
    else
      match slot.check value with
      | .error refusal => .error refusal
      | .ok () =>
        .ok { filling with filled := (slot, value) :: filling.filled, pending := none }

/-- Fills the pending slot and lets another one wait. -/
def await (filling : Filling) (slot : Slot) (value : Option String) :
    Except Refusal Filling :=
  match filling.settle with
  | .error refusal => .error refusal
  | .ok filling => .ok { filling with pending := some (slot, value) }

/-- Fills a slot at once. -/
def fill (filling : Filling) (slot : Slot) (value : String) : Except Refusal Filling :=
  match filling.await slot (some value) with
  | .error refusal => .error refusal
  | .ok filling => filling.settle

/-- Asks for help. -/
def help (filling : Filling) : Refusal :=
  match filling.settle with
  | .error refusal => refusal
  | .ok _ => .help

/-- Puts a value at the next position. -/
def place (filling : Filling) (value : String) : Except Refusal Filling :=
  match filling.positions with
  | [] => .error .unknownArgument
  | slot :: positions =>
    match filling.await slot (some value) with
    | .error refusal => .error refusal
    | .ok filling => .ok { filling with positions := positions }

/-- The value in a slot. -/
def get? (filling : Filling) (slot : Slot) : Option String := filling.filled.lookup slot

end Filling

/-! ### Arguments -/

/-- What an argument looks like. -/
inductive Argument where
  /-- Two dashes: all that follows stands for itself. -/
  | escape
  | long (name : List Char) (value : Option (List Char))
  | short (letters : List Char)
  | plain
deriving DecidableEq, Repr

/-- What an argument looks like. -/
def Argument.of (argument : String) : Argument :=
  match argument.toList with
  | ['-', '-'] => .escape
  | '-' :: '-' :: rest =>
    let name := rest.takeWhile (· ≠ '=')
    .long name (if name.length = rest.length then none else some (rest.drop (name.length + 1)))
  | '-' :: letter :: letters => .short (letter :: letters)
  | _ => .plain

/-- Takes a long option. -/
def takeLong (form : Form) (filling : Filling) (name : String) (value : Option String) :
    Except Refusal Filling :=
  if name = "help" then .error (if value.isSome then .unwantedValue else filling.help)
  else
    match form.options.find? (·.1 == name), value with
    | none, _ => .error .unknownArgument
    | some (_, _, slot), some value => filling.fill slot value
    | some (_, _, slot), none => filling.await slot none

/-- Takes a short option, with its value behind it if there is more. -/
def takeShort (form : Form) (filling : Filling) : List Char → Except Refusal Filling
  | [] => .ok filling
  | letter :: rest =>
    if letter = 'h' then .error filling.help
    else
      match form.options.find? (·.2.1 == some letter), rest with
      | none, _ => .error .unknownArgument
      | some (_, _, slot), [] => filling.await slot none
      | some (_, _, slot), '=' :: value => filling.fill slot (String.ofList value)
      | some (_, _, slot), value => filling.fill slot (String.ofList value)

/-- Takes arguments one by one. Behind two dashes all of them stand for themselves. -/
def takeAll (form : Form) : Bool → Filling → List String → Except Refusal Filling
  | _, filling, [] => filling.settle
  | true, filling, argument :: rest => do takeAll form true (← filling.place argument) rest
  | false, filling, argument :: rest => do
    match Argument.of argument with
    | .escape => takeAll form true filling rest
    | .long name value =>
      let filling ← takeLong form filling (String.ofList name) (value.map String.ofList)
      takeAll form false filling rest
    | .short letters => takeAll form false (← takeShort form filling letters) rest
    | .plain =>
      match filling.pending with
      | some (slot, none) =>
        takeAll form false { filling with pending := some (slot, some argument) } rest
      | _ => takeAll form false (← filling.place argument) rest

/-- The slots that some arguments fill. -/
def fillForm (form : Form) (arguments : List String) : Except Refusal Filling := do
  let filling ← takeAll form false ⟨[], none, form.positions⟩ arguments
  if filling.positions.isEmpty then return filling else throw .missingArgument

/-- The command that analyses. -/
def parseAnalyze (arguments : List String) : Except Refusal Analyze := do
  let filling ← fillForm analyzeForm arguments
  return {
    path := (filling.get? .path).getD ""
    config := (filling.get? .config).map Path.ofString
    format := ((filling.get? .format).bind format?).getD .json
    output := (filling.get? .output).map Path.ofString
    threads := (filling.get? .threads).bind number?
    maxFiles := (filling.get? .maxFiles).bind number?
    maxFileSize := (filling.get? .maxFileSize).bind number? }

/-- The command that shows a function. -/
def parseShow (arguments : List String) : Except Refusal Show := do
  let filling ← fillForm functionForm arguments
  return ⟨(filling.get? .file).getD "", (filling.get? .name).getD ""⟩

/-! ### Commands by name -/

/-- The names of commands. -/
def commandNames : List String := ["analyze", "map", "function", "help"]

/-- Help about a command, or about help, but about nothing further. -/
def helpAbout : List String → Refusal
  | [] => .help
  | [name] => if commandNames.contains name then .help else .unknownCommand
  | _ => .unknownCommand

/-- What is said without a command. -/
def parseFlag (argument : String) (rest : List String) : Refusal :=
  match Argument.of argument with
  | .escape =>
    match rest with
    | [] => .nothingGiven
    | name :: _ => if commandNames.contains name then .unknownArgument else .unknownCommand
  | .long name value =>
    let isHelp := name = "help".toList
    if !isHelp && name ≠ "version".toList then .unknownArgument
    else if value.isSome then .unwantedValue
    else if isHelp then .help
    else .version
  | .short ('h' :: _) => .help
  | .short ('V' :: _) => .version
  | .short _ => .unknownArgument
  | .plain => .unknownCommand

/-- The command that some arguments give. -/
def parse : List String → Except Refusal Command
  | [] => .error .nothingGiven
  | "analyze" :: rest | "map" :: rest => (parseAnalyze rest).map .analyze
  | "function" :: rest => (parseShow rest).map .function
  | "help" :: rest => .error (helpAbout rest)
  | argument :: rest => .error (parseFlag argument rest)

end CodeAtlas.CommandLine
