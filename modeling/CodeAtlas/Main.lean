/-
The command line. Files come with their syntax trees, so a command works on a snapshot of a
file system that it reads from its standard input; the file that a command writes is written to
the disk.
-/
import CodeAtlas.Program
import CodeAtlas.Snapshot

namespace CodeAtlas

/-- How the command is used. -/
def usage : String :=
  "Usage: archmap analyze [OPTIONS] <PATH>\n       archmap function <FILE> <NAME>"

/-- All that can be read from a stream. -/
partial def readAll (stream : IO.FS.Stream) (before : String) : IO String := do
  let line ← stream.getLine
  if line.isEmpty then return before else readAll stream (before ++ line)

/-- Writes the file that a command has written in its snapshot. -/
def writeOutput (command : CommandLine.Command) (outcome : Program.Outcome) : IO Unit :=
  match command with
  | .analyze { output := some path, .. } =>
    match outcome.exitCode, outcome.system.readText path with
    | 0, .ok text => IO.FS.writeFile (Text.shown path) (String.ofList text)
    | _, _ => pure ()
  | _ => pure ()

/-- Runs a command on the snapshot in the standard input. -/
def runCommand (command : CommandLine.Command) : IO UInt32 := do
  match Snapshot.parse (← readAll (← IO.getStdin) "") with
  | .error fault =>
    IO.eprintln ("Error: " ++ fault.message)
    return 2
  | .ok system =>
    let outcome := Program.run system (← (← IO.getStdout).isTty) command
    IO.print (String.ofList outcome.stdout)
    IO.eprint (String.ofList outcome.stderr)
    writeOutput command outcome
    return outcome.exitCode.toUInt32

end CodeAtlas

/-- The command line. -/
def main (arguments : List String) : IO UInt32 :=
  match CodeAtlas.CommandLine.parse arguments with
  | .ok command => CodeAtlas.runCommand command
  | .error .version => do
    IO.println ("archmap " ++ CodeAtlas.Report.version)
    return 0
  | .error refusal => do
    if refusal.exitCode = 0 then IO.println CodeAtlas.usage else IO.eprintln CodeAtlas.usage
    return refusal.exitCode.toUInt32
