import EquivalentCircuit.Yaml.Scalar

/-! The tokens of a YAML text. Indentation becomes explicit: a block collection is opened where the
column of an entry exceeds the indentation so far and closed where a line falls back. A mapping key
shows only by the colon after it, so a token that may begin one is remembered, and the marks of a
key go before it when the colon comes. -/

namespace EquivalentCircuit

namespace Yaml

/-- A tag as the bytes that spell it, which need not be a text. -/
abbrev Tag := List UInt8

namespace Tag

def ofText (s : String) : Tag := s.toUTF8.toList

/-- What counts of a spelling: a null byte ends it. -/
def beforeNull (t : Tag) : Tag := t.takeWhile (· ≠ 0)

/-- The text after the exclamation mark of a local tag. -/
def localName? : Tag → Option String
  | [] => none
  | b :: bs => if b = '!'.toUInt8 then String.fromUTF8? ⟨bs.toArray⟩ else none

/-- The tag of flags. -/
def flag : Tag := ofText "tag:yaml.org,2002:bool"

end Tag

inductive Token where
  | version (major minor : Nat)
  | tagHandle (handle : String) (tagPrefix : Tag)
  | documentStart
  | documentEnd
  | blockSequenceStart
  | blockMappingStart
  | blockEnd
  | flowSequenceStart
  | flowSequenceEnd
  | flowMappingStart
  | flowMappingEnd
  | blockEntry
  | flowEntry
  | key
  | value
  | reference (name : String)
  | anchor (name : String)
  | tag (handle : String) (suffix : Tag)
  | scalar (style : ScalarStyle) (text : String)
deriving DecidableEq

/-- A token that a colon on the same line may turn into a key. -/
structure PossibleKey where
  /-- It must turn into one. -/
  required : Bool
  /-- How many tokens come before it. -/
  number : Nat
  index : Nat
  line : Nat
  column : Nat

structure Lexer where
  cursor : Cursor
  /-- The columns of the open block collections, the innermost first. -/
  blocks : List Nat
  /-- The possible key of each open flow collection, the innermost first, and of the block. -/
  keys : List (Option PossibleKey)
  /-- May a key begin here? -/
  keyAllowed : Bool
  tokens : Array Token

namespace Lexer

def start (text : List Char) : Lexer := ⟨⟨text, 0, 0, 0⟩, [], [none], true, #[]⟩

def inFlow (s : Lexer) : Bool := !s.keys.tail.isEmpty

/-- The least column of what belongs to the innermost block collection. -/
def contentColumn (s : Lexer) : Nat :=
  match s.blocks with
  | [] => 0
  | column :: _ => column + 1

/-- The possible key, unless it has come too far away: a key lies on one line and within 1024
bytes. -/
def currentKey? (s : Lexer) : Option PossibleKey := do
  let k ← s.keys.head?.join
  guard (k.line = s.cursor.line ∧ s.cursor.index ≤ k.index + 1024)
  return k

end Lexer

abbrev Lex (β : Type) := StateT Lexer Option β

namespace Lex

def refuse {β : Type} : Lex β := fun _ => none

def require (b : Bool) : Lex Unit := fun s => if b then some ((), s) else none

/-- A step on the text alone. -/
def read {β : Type} (r : Read β) : Lex β := fun s =>
  (r s.cursor).map fun (b, cursor) => (b, { s with cursor := cursor })

def emit (t : Token) : Lex Unit := modify fun s => { s with tokens := s.tokens.push t }

/-- Puts a token before those from a given number on. -/
def emitAt (n : Nat) (t : Token) : Lex Unit :=
  modify fun s => { s with tokens := s.tokens.insertIdxIfInBounds n t }

def allowKey (b : Bool) : Lex Unit := modify fun s => { s with keyAllowed := b }

def setKey (k : Option PossibleKey) : Lex Unit := modify fun s => { s with keys := k :: s.keys.tail }

/-- Forgets the possible key here; a required one must not be forgotten. -/
def dropKey : Lex Unit := do
  require !((← get).keys.head?.join.any (·.required))
  setKey none

/-- Remembers that a key may begin here. -/
def saveKey : Lex Unit := do
  let s ← get
  if s.keyAllowed then
    let required := !s.inFlow && s.blocks.head? = some s.cursor.column
    dropKey
    setKey (some ⟨required, s.tokens.size, s.cursor.index, s.cursor.line, s.cursor.column⟩)

/-- Opens a block collection if its column exceeds the indentation so far. -/
def openBlock (column number : Nat) (t : Token) : Lex Unit := do
  let s ← get
  if !s.inFlow && s.blocks.head?.all (· < column) then
    set { s with blocks := column :: s.blocks }
    emitAt number t

/-- Closes the inner block collections at the given columns. -/
def closeBlocks (p : Nat → Bool) : Lex Unit := modify fun s =>
  if s.inFlow then s
  else
    let closed := (s.blocks.takeWhile p).length
    { s with
      blocks := s.blocks.drop closed
      tokens := s.tokens ++ Array.replicate closed .blockEnd }

end Lex

end Yaml

end EquivalentCircuit
