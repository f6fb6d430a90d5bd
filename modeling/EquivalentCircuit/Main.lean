import EquivalentCircuit.Command.Run
import Std.Time.DateTime.Timestamp

/-! The program: it reads the command line, runs the command on the files of the system and prints
the report. -/

namespace EquivalentCircuit

def readFile (path : String) : IO Content := do
  match ← EIO.toBaseIO (IO.FS.Handle.mk path .read) with
  | .error _ => return .missing
  | .ok handle =>
    match ← EIO.toBaseIO handle.readBinToEnd with
    | .error _ => return .unreadable
    | .ok b => return .bytes b

/-- Does the work and tells whether it succeeded. -/
def succeeds (work : IO Unit) : IO Bool := do
  match ← EIO.toBaseIO work with
  | .error _ => return false
  | .ok _ => return true

instance : FileAccess IO where
  read := readFile
  makeDirectories path := succeeds (IO.FS.createDirAll path)
  write path content := succeeds (IO.FS.writeBinFile path content)

def currentTime : IO Timestamp := do
  let now ← Std.Time.Timestamp.now
  let nanos := now.toNanosecondsSinceUnixEpoch.val
  return ⟨nanos.fdiv Timestamp.unit, (nanos.fmod Timestamp.unit).toNat⟩

def usage : String := unlines [
  "Transformer equivalent-circuit conversion",
  "",
  "  xfc convert INPUT --output FILE [--config FILE] [--threads N] [--strict] [--manifest FILE]",
  "  xfc config default [--format toml|json|yaml]",
  "  xfc config check FILE",
  "",
  "Every command takes --log-level LEVEL and --help."]

def ArgumentFault.message : ArgumentFault → String
  | unknownArgument => "unexpected argument"
  | missingRequiredArgument => "a required argument was not given"
  | invalidValue => "a value is missing or invalid"
  | malformedValue => "a value cannot be read"
  | surplusValue => "a flag takes no value"
  | repeatedArgument => "an argument cannot be given more than once"
  | unknownCommand => "unrecognized subcommand"
  | missingCommand => "a subcommand is required but was not given"
  | nothingGiven => "a subcommand is required"
  | helpRequested => "help"
  | versionRequested => "version"

/-- Prints what a refused command line calls for; only requests are a success. -/
def refuse (f : ArgumentFault) : IO UInt32 := do
  match f with
  | .helpRequested =>
    IO.print usage
    return 0
  | .versionRequested =>
    IO.println "xfc 0.3.1"
    return 0
  | .nothingGiven =>
    IO.eprint usage
    return 2
  | _ =>
    IO.eprintln s!"error: {f.message}"
    return 2

end EquivalentCircuit

open EquivalentCircuit in
def main (words : List String) : IO UInt32 := do
  match CommandLine.read words with
  | .error f => refuse f
  | .ok line =>
    let report : Report ← line.command.run (← currentTime)
    IO.print report.printed
    match report.failure with
    | none => return 0
    | some f =>
      IO.eprintln s!"error: {f.text}"
      return 1
