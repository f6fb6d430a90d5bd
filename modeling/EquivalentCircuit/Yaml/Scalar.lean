import EquivalentCircuit.Yaml.Cursor

/-! The scalars of YAML: plain, quoted and block texts. A line break inside a plain or quoted text
folds into a blank, and each further one into a new line. -/

namespace EquivalentCircuit

namespace Yaml

inductive ScalarStyle where
  | plain
  | quoted
  | literal
  | folded
deriving DecidableEq

/-- Blanks and line breaks between the words of a text, both with the latest first. -/
structure Gap where
  spaces : List Char
  /-- A line has ended. -/
  broken : Bool
  first : Option Char
  more : List Char

namespace Gap

def none : Gap := ⟨[], false, .none, []⟩

/-- The gap after a line break that was escaped. -/
def escaped : Gap := ⟨[], true, .none, []⟩

def addSpace (g : Gap) (c : Char) : Gap := if g.broken then g else { g with spaces := c :: g.spaces }

def addBreak (g : Gap) (c : Char) : Gap :=
  if g.broken then { g with more := c :: g.more } else ⟨[], true, some c, []⟩

/-- What the gap stands for. -/
def text (g : Gap) : List Char :=
  if g.broken then
    match g.first with
    | some '\n' => if g.more.isEmpty then [' '] else g.more.reverse
    | some c => c :: g.more.reverse
    | .none => g.more.reverse
  else g.spaces.reverse

end Gap

/-- The gap that comes next. Where an indentation is given, no tab may stand in for it. -/
def scanGap (indent : Option Nat) (gap : Gap) : Nat → Read Gap
  | 0 => Read.refuse
  | fuel + 1 => do
    match ← Read.peek with
    | none => return gap
    | some c =>
      if isBlank c then
        let column := (← get).column
        Read.require !(gap.broken && c = '\t' && indent.any (column < ·))
        Read.skip
        scanGap indent (gap.addSpace c) fuel
      else if isBreak c then
        scanGap indent (gap.addBreak (← Read.lineBreak)) fuel
      else return gap

def isFlowIndicator (c : Char) : Bool :=
  c = ',' || c = '[' || c = ']' || c = '\x7b' || c = '\x7d'

/-- A run of plain characters. In a flow collection its indicators end the run, and a colon may not
stand right before one. -/
def scanRun (inFlow : Bool) : List Char → Option (List Char)
  | [] => some []
  | c :: s =>
    if isBlank c || isBreak c then some []
    else if inFlow && c = ':' && s.head?.any (fun d => isFlowIndicator d || d = '?') then none
    else if (c = ':' && endsWord s) || (inFlow && isFlowIndicator c) then some []
    else (scanRun inFlow s).map (c :: ·)

/-- The rest of a plain text after `done` and a gap, its last character first, and whether a line has
ended behind it. -/
def scanPlain (inFlow : Bool) (indent : Nat) (done : List Char) (gap : Gap) :
    Nat → Read (List Char × Bool)
  | 0 => Read.refuse
  | fuel + 1 => do
    let here ← get
    if here.atDocumentMark || here.text.head? = some '#' then return (done, gap.broken)
    match scanRun inFlow here.text with
    | none => Read.refuse
    | some [] => return (done, gap.broken)
    | some run =>
      set (here.advance run.length)
      let done := List.reverseAux (gap.text ++ run) done
      match ← Read.peek with
      | none => return (done, false)
      | some c =>
        if !(isBlank c || isBreak c) then return (done, false)
        let gap ← scanGap (some indent) Gap.none (fuel + 1)
        if !inFlow && (← get).column < indent then return (done, gap.broken)
        scanPlain inFlow indent done gap fuel

def scanHex (n : Nat) : Read Char := do
  let s ← get
  let ds := s.text.take n
  Read.require (ds.length = n && ds.all isHexDigit)
  set (s.advance n)
  let code := ofDigits 16 ds
  if h : code.isValidChar then return Char.ofNatAux code h else Read.refuse

/-- The character of an escape in double quotes, after the backslash. -/
def scanEscape : Read Char := do
  match ← Read.next with
  | '0' => return '\x00'
  | 'a' => return '\x07'
  | 'b' => return '\x08'
  | 't' | '\t' => return '\t'
  | 'n' => return '\n'
  | 'v' => return '\x0b'
  | 'f' => return '\x0c'
  | 'r' => return '\r'
  | 'e' => return '\x1b'
  | ' ' => return ' '
  | '"' => return '"'
  | '/' => return '/'
  | '\\' => return '\\'
  | 'N' => return '\x85'
  | '_' => return '\u00a0'
  | 'L' => return '\u2028'
  | 'P' => return '\u2029'
  | 'x' => scanHex 2
  | 'u' => scanHex 4
  | 'U' => scanHex 8
  | _ => Read.refuse

/-- Words between quotes up to a blank, a line break, an escaped line break or the closing quote,
the last character first; says whether a line break was escaped. -/
def scanQuotedRun (single : Bool) (done : List Char) : Nat → Read (List Char × Bool)
  | 0 => Read.refuse
  | fuel + 1 => do
    match (← get).text with
    | [] => return (done, false)
    | c :: s =>
      if isBlank c || isBreak c then return (done, false)
      else if single then
        if c = '\'' then
          if s.head? = some '\'' then
            Read.skip
            Read.skip
            scanQuotedRun single ('\'' :: done) fuel
          else return (done, false)
        else
          Read.skip
          scanQuotedRun single (c :: done) fuel
      else if c = '"' then return (done, false)
      else if c = '\\' then
        Read.skip
        if s.head?.any isBreak then
          modify Cursor.skipBreak
          return (done, true)
        else scanQuotedRun single ((← scanEscape) :: done) fuel
      else
        Read.skip
        scanQuotedRun single (c :: done) fuel

/-- The rest of a quoted text with its closing quote after `done`, whose last character comes
first. -/
def scanQuoted (single : Bool) (done : List Char) : Nat → Read (List Char)
  | 0 => Read.refuse
  | fuel + 1 => do
    let here ← get
    Read.require (!here.atDocumentMark && !here.text.isEmpty)
    let (done, escaped) ← scanQuotedRun single done (fuel + 1)
    match ← Read.peek with
    | none => Read.refuse
    | some c =>
      if c = (if single then '\'' else '"') then
        Read.skip
        return done.reverse
      else
        let gap ← scanGap none (if escaped then Gap.escaped else Gap.none) (fuel + 1)
        scanQuoted single (List.reverseAux gap.text done) fuel

/-- What becomes of the line breaks at the end of a block text. -/
inductive Chomping where
  | clip
  | strip
  | keep
deriving DecidableEq

def scanChomping : Read (Option Chomping) := do
  match ← Read.peek with
  | some '+' => do Read.skip; return some .keep
  | some '-' => do Read.skip; return some .strip
  | _ => return none

/-- An indentation of one to nine, if a digit comes next. -/
def scanIncrement : Read (Option Nat) := do
  match ← Read.peek with
  | some c =>
    if c.isDigit then
      Read.require (c ≠ '0')
      Read.skip
      return some (digitValue c)
    else return none
  | none => return none

/-- The marks after the indicator of a block text, in either order. -/
def scanBlockMarks : Read (Chomping × Option Nat) := do
  match ← scanChomping with
  | some chomping => return (chomping, ← scanIncrement)
  | none =>
    let increment ← scanIncrement
    let chomping ← if increment.isSome then scanChomping else pure none
    return (chomping.getD .clip, increment)

/-- The breaks of empty lines before a line of a block text, the last first, and the greatest column
they reach. An indentation of zero is not known yet. -/
def scanBlockBreaks (indent : Nat) (breaks : List Char) (widest : Nat) :
    Nat → Read (List Char × Nat)
  | 0 => Read.refuse
  | fuel + 1 => do
    let here ← get
    let spaces := (here.text.takeWhile (· = ' ')).length
    let here := here.advance (if indent = 0 then spaces else min spaces (indent - here.column))
    set here
    let column := here.column
    let widest := max widest column
    match ← Read.peek with
    | some c =>
      Read.require !((indent = 0 || column < indent) && c = '\t')
      if isBreak c then scanBlockBreaks indent ((← Read.lineBreak) :: breaks) widest fuel
      else return (breaks, widest)
    | none => return (breaks, widest)

/-- The lines of a block text after `done`. `lead` is the break of the line before and `blank` says
whether that line began with a blank. The texts have their last character first. -/
def scanBlockLines (style : ScalarStyle) (indent : Nat) (done lead breaks : List Char)
    (blank : Bool) : Nat → Read (List Char × List Char × List Char)
  | 0 => Read.refuse
  | fuel + 1 => do
    let here ← get
    if here.column ≠ indent || here.text.isEmpty then return (done, lead, breaks)
    let beginsBlank := here.text.head?.any isBlank
    let joined :=
      if style = .folded && lead = ['\n'] && !blank && !beginsBlank then
        if breaks.isEmpty then [' '] else []
      else lead
    let line ← Read.takeWhile fun c => !isBreak c
    let lead ← match ← Read.peek with
      | none => pure []
      | some _ => do pure [← Read.lineBreak]
    let (more, _) ← scanBlockBreaks indent [] 0 (fuel + 1)
    let done := List.reverseAux line (breaks ++ joined ++ done)
    scanBlockLines style indent done lead more beginsBlank fuel

/-- A block text after its indicator; `least` is the least column of its lines. -/
def scanBlock (style : ScalarStyle) (least fuel : Nat) : Read (List Char) := do
  let (chomping, increment) ← scanBlockMarks
  Read.endLine
  let stated := match increment with
    | some n => least - 1 + n
    | none => 0
  let (breaks, widest) ← scanBlockBreaks stated [] 0 fuel
  let indent := if stated = 0 then max widest (max least 1) else stated
  let (done, lead, breaks) ← scanBlockLines style indent [] [] breaks false fuel
  match chomping with
  | .strip => return done.reverse
  | .clip => return (lead ++ done).reverse
  | .keep => return (breaks ++ lead ++ done).reverse

end Yaml

end EquivalentCircuit
