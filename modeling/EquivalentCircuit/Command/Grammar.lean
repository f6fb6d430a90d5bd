/-! Command lines with nested commands. The value of an option is taken up only when the next word
settles that it has ended, so faults show in the order in which values are settled. -/

namespace EquivalentCircuit

/-- Why a command line is refused, or what it asks for in place of a run. -/
inductive ArgumentFault where
  | unknownArgument
  | missingRequiredArgument
  /-- A value is missing, empty or not among those listed. -/
  | invalidValue
  /-- A value is not of the form it should have. -/
  | malformedValue
  /-- A flag was given a value. -/
  | surplusValue
  | repeatedArgument
  | unknownCommand
  | missingCommand
  /-- Nothing at all was given where a command is needed. -/
  | nothingGiven
  | helpRequested
  | versionRequested
deriving DecidableEq

abbrev Refusable (β : Type) := Except ArgumentFault β

inductive OptionRole (β : Type) where
  | value (read : String → Refusable β)
  | flag (b : β)
  | help
  | version

structure OptionRule (β : Type) where
  name : String
  short : Option Char
  role : OptionRole β

structure PositionalRule (β : Type) where
  name : String
  read : String → Refusable β

inductive CommandRule (β : Type) where
  | rule (options : List (OptionRule β)) (positionals : List (PositionalRule β))
    (required : List String) (commands : List (String × CommandRule β))

/-- The commands named and the arguments given to each, the outermost first. -/
structure ArgumentTree (β : Type) where
  path : List String
  levels : List (List (String × β))

namespace CommandRule

variable {β : Type}

def options : CommandRule β → List (OptionRule β)
  | rule options _ _ _ => options

def positionals : CommandRule β → List (PositionalRule β)
  | rule _ positionals _ _ => positionals

def required : CommandRule β → List String
  | rule _ _ required _ => required

def commands : CommandRule β → List (String × CommandRule β)
  | rule _ _ _ commands => commands

def long? (c : CommandRule β) (name : List Char) : Option (OptionRule β) :=
  c.options.find? (·.name.toList = name)

def short? (c : CommandRule β) (letter : Char) : Option (OptionRule β) :=
  c.options.find? (·.short = some letter)

/-- A value that is still to be taken up; without a word it is missing. -/
structure Pending (β : Type) where
  name : String
  read : String → Refusable β
  word : Option String

/-- What a command has been given so far. -/
structure Progress (β : Type) where
  found : List (String × β)
  pending : Option (Pending β)
  positionals : List (PositionalRule β)
  /-- Options have ended. -/
  ended : Bool

namespace Progress

def add (p : Progress β) (name : String) (b : Refusable β) : Refusable (Progress β) := do
  if (p.found.lookup name).isSome then throw .repeatedArgument
  return { p with found := p.found ++ [(name, ← b)] }

/-- Takes up the value that is waiting. -/
def settle (p : Progress β) : Refusable (Progress β) :=
  match p.pending with
  | none => pure p
  | some q =>
    match q.word with
    | none => throw .invalidValue
    | some word => Progress.add { p with pending := none } q.name (q.read word)

/-- Is the next word the value of an option? -/
def isWaiting (p : Progress β) : Bool := p.pending.any (·.word.isNone)

def give (p : Progress β) (word : String) : Progress β :=
  { p with pending := p.pending.map fun q => { q with word := some word } }

/-- An option with the value attached to it, if there is one. -/
def addOption (p : Progress β) (o : OptionRule β) (attached : Option (List Char)) :
    Refusable (Progress β) :=
  match o.role, attached with
  | .value read, some word => do (← p.settle).add o.name (read (String.ofList word))
  | .value read, none => do return { ← p.settle with pending := some ⟨o.name, read, none⟩ }
  | _, some _ => throw .surplusValue
  | .flag b, none => do (← p.settle).add o.name (pure b)
  | .help, none => do
    let _ ← p.settle
    throw .helpRequested
  | .version, none => do
    let _ ← p.settle
    throw .versionRequested

/-- An option after two hyphens; an equals sign attaches a value. -/
def addLong (c : CommandRule β) (p : Progress β) (word : List Char) : Refusable (Progress β) :=
  match c.long? (word.takeWhile (· ≠ '=')) with
  | none => throw .unknownArgument
  | some o => p.addOption o (if word.contains '=' then some (word.dropWhile (· ≠ '=')).tail else none)

/-- Options after one hyphen. What follows one that takes a value is its value. -/
def addShort (c : CommandRule β) : Progress β → List Char → Refusable (Progress β)
  | p, [] => pure p
  | p, letter :: rest =>
    match c.short? letter with
    | none => throw .unknownArgument
    | some o =>
      match o.role, rest with
      | .value _, [] => p.addOption o none
      | .value _, '=' :: word => p.addOption o (some word)
      | .value _, word => p.addOption o (some word)
      | _, rest => do addShort c (← p.addOption o none) rest

/-- The next positional argument. -/
def addPositional (c : CommandRule β) (p : Progress β) (word : String) : Refusable (Progress β) :=
  match p.positionals with
  | r :: rest => do
    return { ← p.settle with pending := some ⟨r.name, r.read, some word⟩, positionals := rest }
  | [] =>
    if c.commands.isEmpty || (p.ended && (word = "help" || (c.commands.lookup word).isSome)) then
      throw .unknownArgument
    else throw .unknownCommand

end Progress

def start (c : CommandRule β) : Progress β := ⟨[], none, c.positionals, false⟩

/-- What a request for help on nested commands comes to. -/
def helpOn : CommandRule β → List String → ArgumentFault
  | _, [] => .helpRequested
  | c, word :: words =>
    match c.commands.lookup word with
    | some inner => helpOn inner words
    | none =>
      if word = "help" ∧ words = [] ∧ !c.commands.isEmpty then .helpRequested else .unknownCommand

def checkRequired (c : CommandRule β) (p : Progress β) : Refusable Unit :=
  if c.required.all fun name => (p.found.lookup name).isSome then pure ()
  else throw .missingRequiredArgument

/-- The end of a command line in a command. -/
def finish (c : CommandRule β) (p : Progress β) : Refusable (ArgumentTree β) := do
  let p ← p.settle
  if !c.commands.isEmpty then
    throw (if p.found.isEmpty then .nothingGiven else .missingCommand)
  c.checkRequired p
  return ⟨[], [p.found]⟩

/-- Reads the words of a command one by one. A command inside is read first, then what waits
outside is taken up. -/
def readFrom (c : CommandRule β) : Progress β → List String → Refusable (ArgumentTree β)
  | p, [] => c.finish p
  | p, word :: words =>
    let cs := word.toList
    if p.ended then do c.readFrom (← p.addPositional c word) words
    else
      match if p.isWaiting then none else c.commands.lookup word with
      | some inner => do
        let tree ← inner.readFrom inner.start words
        let p ← p.settle
        c.checkRequired p
        return ⟨word :: tree.path, p.found :: tree.levels⟩
      | none =>
        if !p.isWaiting && word = "help" && !c.commands.isEmpty then throw (c.helpOn words)
        else match cs with
          | ['-', '-'] => c.readFrom { p with ended := true } words
          | '-' :: '-' :: option => do c.readFrom (← p.addLong c option) words
          | '-' :: letter :: letters => do c.readFrom (← p.addShort c (letter :: letters)) words
          | _ =>
            if p.isWaiting then c.readFrom (p.give word) words
            else do c.readFrom (← p.addPositional c word) words

def read (c : CommandRule β) (words : List String) : Refusable (ArgumentTree β) :=
  c.readFrom c.start words

end CommandRule

end EquivalentCircuit
