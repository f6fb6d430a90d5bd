import EquivalentCircuit.Text.Scan

/-! A place in a YAML text, with its line and column. -/

namespace EquivalentCircuit

namespace Yaml

structure Cursor where
  text : List Char
  /-- How many bytes come before it. -/
  index : Nat
  line : Nat
  column : Nat

def isBlank (c : Char) : Bool := c = ' ' || c = '\t'

def isBreak (c : Char) : Bool :=
  c = '\n' || c = '\r' || c = '\x85' || c = '\u2028' || c = '\u2029'

/-- Letters, digits, the underscore and the hyphen of ASCII. -/
def isNameChar (c : Char) : Bool := c.isAlphanum || c = '_' || c = '-'

/-- Characters a text may hold at all. -/
def isAllowed (c : Char) : Bool :=
  c = '\t' || c = '\n' || c = '\r' || (' ' ≤ c && c ≤ '~') || c = '\x85' ||
    ('\u00a0' ≤ c && c ≠ '\ufffe' && c ≠ '\uffff')

/-- Does a blank, a line break or the end come next? -/
def endsWord : List Char → Bool
  | [] => true
  | c :: _ => isBlank c || isBreak c

/-- Does a mark between documents stand here, given that a line begins here? -/
def isDocumentMark : List Char → Bool
  | '-' :: '-' :: '-' :: s => endsWord s
  | '.' :: '.' :: '.' :: s => endsWord s
  | _ => false

/-- The length of a text in UTF-8. -/
def byteLength (s : List Char) : Nat := (s.map Char.utf8Size).foldr (· + ·) 0

namespace Cursor

/-- Past `n` characters of a line. -/
def advance (n : Nat) (c : Cursor) : Cursor :=
  { c with
    text := c.text.drop n
    index := c.index + byteLength (c.text.take n)
    column := c.column + n }

/-- Past one line break. -/
def skipBreak (c : Cursor) : Cursor :=
  match c.text with
  | '\r' :: '\n' :: s => ⟨s, c.index + 2, c.line + 1, 0⟩
  | s => ⟨s.tail, c.index + byteLength (s.take 1), c.line + 1, 0⟩

/-- Past the characters that satisfy `p`; line breaks must not. -/
def skipWhile (p : Char → Bool) (c : Cursor) : Cursor := c.advance (c.text.takeWhile p).length

def atDocumentMark (c : Cursor) : Bool := c.column = 0 && isDocumentMark c.text

end Cursor

/-- What a line break stands for in a text: a new line, or the separator itself. -/
def breakChar (c : Char) : Char := if c = '\u2028' || c = '\u2029' then c else '\n'

abbrev Read (β : Type) := StateT Cursor Option β

namespace Read

def refuse {β : Type} : Read β := fun _ => none

def require (b : Bool) : Read Unit := fun s => if b then some ((), s) else none

def peek : Read (Option Char) := fun s => some (s.text.head?, s)

def skip : Read Unit := modify (Cursor.advance 1)

def next : Read Char := fun s =>
  match s.text with
  | [] => none
  | c :: _ => some (c, s.advance 1)

def takeWhile (p : Char → Bool) : Read (List Char) := fun s =>
  some (s.text.takeWhile p, s.skipWhile p)

/-- The character of the line break that comes next. -/
def lineBreak : Read Char := do
  match ← peek with
  | none => refuse
  | some c =>
    modify Cursor.skipBreak
    return breakChar c

/-- Nothing but blanks and a comment up to the end of the line. -/
def endLine : Read Unit := do
  let _ ← takeWhile isBlank
  if (← peek) = some '#' then
    let _ ← takeWhile fun c => !isBreak c
  match ← peek with
  | none => pure ()
  | some c =>
    require (isBreak c)
    modify Cursor.skipBreak

end Read

end Yaml

end EquivalentCircuit
