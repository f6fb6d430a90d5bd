import EquivalentCircuit.Command.Grammar
import EquivalentCircuit.Policy.Format
import EquivalentCircuit.Text.Scan

/-! The commands of the program and their arguments. -/

namespace EquivalentCircuit

inductive LogLevel where
  | error
  | warn
  | info
  | debug
  | trace
deriving DecidableEq

namespace LogLevel

def all : List LogLevel := [error, warn, info, debug, trace]

def name : LogLevel → String
  | error => "ERROR"
  | warn => "WARN"
  | info => "INFO"
  | debug => "DEBUG"
  | trace => "TRACE"

end LogLevel

structure ConvertArguments where
  input : String
  output : String
  policy : Option String
  /-- Workers; zero means one for each processor. They share the jobs and change no result. -/
  threads : Nat
  /-- Fail if any transformer fails or any condition is met. -/
  strict : Bool
  manifest : Option String
deriving DecidableEq

inductive Command where
  | convert (arguments : ConvertArguments)
  | showDefaults (format : PolicyFormat)
  | checkPolicy (path : String)
deriving DecidableEq

structure CommandLine where
  logLevel : LogLevel
  command : Command
deriving DecidableEq

inductive ArgumentValue where
  | path (p : String)
  | count (n : Nat)
  | level (l : LogLevel)
  | format (f : PolicyFormat)
  | set
deriving DecidableEq

namespace ArgumentValue

/-- A count of 64 bits in decimal digits, perhaps after a plus sign. -/
def countOf? (word : String) : Option Nat := do
  let digits := match word.toList with
    | '+' :: digits => digits
    | digits => digits
  guard (!digits.isEmpty && digits.all Char.isDigit)
  let n := ofDigits 10 digits
  guard (n < Nat.pow 2 64)
  return n

/-- A level by its number, the gravest first, or by its name in any case. -/
def levelOf? (word : String) : Option LogLevel :=
  match countOf? word with
  | some n => if n = 0 then none else LogLevel.all[n - 1]?
  | none => LogLevel.all.find? (·.name = word.map Char.toUpper)

def readPath (word : String) : Refusable ArgumentValue :=
  if word.isEmpty then throw .invalidValue else pure (path word)

def readCount (word : String) : Refusable ArgumentValue :=
  match countOf? word with
  | some n => pure (count n)
  | none => throw .malformedValue

def readLevel (word : String) : Refusable ArgumentValue :=
  match levelOf? word with
  | some l => pure (level l)
  | none => throw .malformedValue

def readFormat (word : String) : Refusable ArgumentValue :=
  match [PolicyFormat.toml, .json, .yaml].find? (·.name = word) with
  | some f => pure (format f)
  | none => throw .invalidValue

end ArgumentValue

namespace CommandLine

open ArgumentValue

/-- Options of every command. -/
def commonOptions : List (OptionRule ArgumentValue) :=
  [⟨"log-level", none, .value readLevel⟩, ⟨"help", some 'h', .help⟩]

def convertRule : CommandRule ArgumentValue :=
  .rule
    (commonOptions ++ [
      ⟨"output", some 'o', .value readPath⟩, ⟨"config", none, .value readPath⟩,
      ⟨"threads", none, .value readCount⟩, ⟨"strict", none, .flag .set⟩,
      ⟨"manifest", none, .value readPath⟩])
    [⟨"input", readPath⟩] ["input", "output"] []

def configRule : CommandRule ArgumentValue :=
  .rule commonOptions [] [] [
    ("default", .rule (commonOptions ++ [⟨"format", none, .value readFormat⟩]) [] [] []),
    ("check", .rule commonOptions [⟨"file", readPath⟩] ["file"] [])]

def programRule : CommandRule ArgumentValue :=
  .rule (commonOptions ++ [⟨"version", some 'V', .version⟩]) [] []
    [("convert", convertRule), ("config", configRule)]

def pathOf? (found : List (String × ArgumentValue)) (name : String) : Option String :=
  match found.lookup name with
  | some (.path p) => some p
  | _ => none

def requiredPath (found : List (String × ArgumentValue)) (name : String) : Refusable String :=
  match pathOf? found name with
  | some p => pure p
  | none => throw .missingRequiredArgument

def commandOf (path : List String) (found : List (String × ArgumentValue)) : Refusable Command := do
  match path with
  | ["convert"] =>
    return .convert {
      input := ← requiredPath found "input"
      output := ← requiredPath found "output"
      policy := pathOf? found "config"
      threads := match found.lookup "threads" with
        | some (.count n) => n
        | _ => 0
      strict := (found.lookup "strict").isSome
      manifest := pathOf? found "manifest" }
  | ["config", "default"] =>
    return .showDefaults (match found.lookup "format" with
      | some (.format f) => f
      | _ => .toml)
  | ["config", "check"] => return .checkPolicy (← requiredPath found "file")
  | _ => throw .missingCommand

/-- The level given to the innermost command that has one. -/
def levelOf (levels : List (List (String × ArgumentValue))) : LogLevel :=
  let given : Option ArgumentValue := levels.reverse.findSome? fun found => found.lookup "log-level"
  match given with
  | some (.level l) => l
  | _ => .info

/-- Reads the words after the name of the program. -/
def read (words : List String) : Refusable CommandLine := do
  let tree ← programRule.read words
  return ⟨levelOf tree.levels, ← commandOf tree.path (tree.levels.getLast?.getD [])⟩

end CommandLine

end EquivalentCircuit
