import EquivalentCircuit.Toml.Scalar

/-! Reading TOML texts. -/

namespace EquivalentCircuit

namespace Toml

/-- Arrays and inline tables nest, and keys are dotted, less deeply than this. -/
def depthLimit : Nat := 80

def isBlank (c : Char) : Bool := c = ' ' || c = '\t'

def skipBlank : Scan Unit := do
  let _ ← Scan.takeWhile isBlank

/-- Characters that may stand as they are in a comment or a text. -/
def isPrintable (c : Char) : Bool := c = '\t' || (' ' ≤ c && c ≠ '\x7f')

/-- A comment up to the end of its line. -/
def skipComment : Scan Unit := do
  if ← Scan.charIf '#' then
    let _ ← Scan.takeWhile isPrintable

/-- The end of a line, if one comes next. -/
def newlineIf : Scan Bool
  | '\n' :: s => some (true, s)
  | '\r' :: '\n' :: s => some (true, s)
  | s => some (false, s)

/-- Nothing but blanks and a comment up to the end of the line. -/
def endLine : Scan Unit := do
  skipBlank
  skipComment
  unless ← newlineIf do
    Scan.require (← Scan.peek).isNone

def isBareKey (c : Char) : Bool := c.isAlphanum || c = '_' || c = '-'

/-- The character of an escape of `n` hexadecimal digits. -/
def codePoint? (n : Nat) : Option Char := if h : n.isValidChar then some (Char.ofNatAux n h) else none

def escaped? : Char → Option Char
  | 'b' => some '\x08'
  | 't' => some '\t'
  | 'n' => some '\n'
  | 'f' => some '\x0c'
  | 'r' => some '\r'
  | '"' => some '"'
  | '\\' => some '\\'
  | _ => none

/-- Blanks and line ends after a backslash at the end of a line. -/
def skipBreaks : List Char → List Char
  | '\r' :: '\n' :: s => skipBreaks s
  | c :: s => if isBlank c || c = '\n' then skipBreaks s else c :: s
  | [] => []

/-- The rest of the text if only blanks lie between a backslash and the end of its line. -/
def lineBreak? (s : List Char) : Option (List Char) :=
  match s.dropWhile isBlank with
  | '\n' :: s => some (skipBreaks s)
  | '\r' :: '\n' :: s => some (skipBreaks s)
  | _ => none

/-- The characters up to the closing quote of a text on one line; a backslash escapes only in a
basic one. The fuel is the number of characters left. -/
def scanQuoted (quote : Char) (done : List Char) : Nat → Scan (List Char)
  | 0 => Scan.refuse
  | fuel + 1 => do
    let c ← Scan.next
    if c = quote then return done.reverse
    if c = '\\' && quote = '"' then
      let e ← Scan.next
      if e = 'u' || e = 'U' then
        let ds ← Scan.take (if e = 'u' then 4 else 8)
        Scan.require (ds.all isHexDigit)
        scanQuoted quote ((← Scan.ofOption (codePoint? (ofDigits 16 ds))) :: done) fuel
      else
        scanQuoted quote ((← Scan.ofOption (escaped? e)) :: done) fuel
    else
      Scan.require (isPrintable c)
      scanQuoted quote (c :: done) fuel

/-- The characters up to the three closing quotes of a text on several lines. Up to two quotes may
stand before the closing ones. -/
def scanMultiline (quote : Char) (done : List Char) : Nat → Scan (List Char)
  | 0 => Scan.refuse
  | fuel + 1 => do
    if ← newlineIf then
      scanMultiline quote ('\n' :: done) fuel
    else
      let c ← Scan.next
      if c = quote then
        let more ← Scan.takeWhile (· = quote)
        if more.length < 2 then
          scanMultiline quote (c :: more ++ done) fuel
        else
          Scan.require (more.length ≤ 4)
          return (List.replicate (more.length - 2) quote ++ done).reverse
      else if c = '\\' && quote = '"' then
        match lineBreak? (← Scan.rest) with
        | some s =>
          set s
          scanMultiline quote done fuel
        | none =>
          let e ← Scan.next
          if e = 'u' || e = 'U' then
            let ds ← Scan.take (if e = 'u' then 4 else 8)
            Scan.require (ds.all isHexDigit)
            scanMultiline quote ((← Scan.ofOption (codePoint? (ofDigits 16 ds))) :: done) fuel
          else
            scanMultiline quote ((← Scan.ofOption (escaped? e)) :: done) fuel
      else
        Scan.require (isPrintable c)
        scanMultiline quote (c :: done) fuel

/-- A text on one line. -/
def scanLineText (quote : Char) : Scan String := do
  Scan.char quote
  return String.ofList (← scanQuoted quote [] ((← Scan.rest).length + 1))

/-- A text in single or triple quotes. -/
def scanText (quote : Char) : Scan String := do
  match ← Scan.rest with
  | a :: b :: c :: s =>
    if [a, b, c].all (· = quote) then
      set s
      let _ ← newlineIf
      return String.ofList (← scanMultiline quote [] (s.length + 1))
    else scanLineText quote
  | _ => scanLineText quote

def scanSimpleKey : Scan String := do
  match ← Scan.peek with
  | some '"' => scanLineText '"'
  | some '\'' => scanLineText '\''
  | _ =>
    let cs ← Scan.takeWhile isBareKey
    Scan.require !cs.isEmpty
    return String.ofList cs

/-- The parts of a dotted key with the blanks around them. -/
def scanKeyParts : Nat → Scan (List String)
  | 0 => Scan.refuse
  | fuel + 1 => do
    skipBlank
    let k ← scanSimpleKey
    skipBlank
    if ← Scan.charIf '.' then return k :: (← scanKeyParts fuel) else return [k]

def scanKey : Scan (List String) := scanKeyParts (depthLimit - 1)

def isWordChar (c : Char) : Bool := isBareKey c || c = '+' || c = '.' || c = ':'

/-- An unquoted value; a time may follow its date after one space. -/
def scanWord : Scan Toml := do
  let word ← Scan.takeWhile isWordChar
  match ← Scan.rest with
  | ' ' :: c :: _ =>
    if isDate word && c.isDigit then
      Scan.char ' '
      let clock ← Scan.takeWhile isWordChar
      Scan.ofOption (ofWord? (word ++ ' ' :: clock))
    else Scan.ofOption (ofWord? word)
  | _ => Scan.ofOption (ofWord? word)

/-- Blanks, comments and line ends between the items of an array. -/
def skipLines : Nat → Scan Unit
  | 0 => Scan.refuse
  | fuel + 1 => do
    skipBlank
    match ← Scan.peek with
    | some '#' =>
      skipComment
      Scan.require (← newlineIf)
      skipLines fuel
    | _ => if ← newlineIf then skipLines fuel

mutual

/-- A value inside `depth` arrays and inline tables. -/
def scanValue : Nat → Nat → Scan Toml
  | 0, _ => Scan.refuse
  | fuel + 1, depth => do
    match ← Scan.peek with
    | some '"' => return text (← scanText '"')
    | some '\'' => return text (← scanText '\'')
    | some '[' =>
      Scan.require (depth + 1 < depthLimit)
      Scan.char '['
      return array (← scanItems fuel (depth + 1))
    | some '\x7b' =>
      Scan.require (depth + 1 < depthLimit)
      Scan.char '\x7b'
      skipBlank
      if ← Scan.charIf '\x7d' then return table .closed []
      Scan.ofOption (ofEntries (← scanEntries fuel (depth + 1)))
    | _ => scanWord

/-- The items up to the closing bracket; a comma may follow the last one. -/
def scanItems : Nat → Nat → Scan (List Toml)
  | 0, _ => Scan.refuse
  | fuel + 1, depth => do
    skipLines (fuel + 1)
    if ← Scan.charIf ']' then return []
    let v ← scanValue fuel depth
    skipLines (fuel + 1)
    if ← Scan.charIf ']' then return [v]
    Scan.char ','
    return v :: (← scanItems fuel depth)

/-- The entries up to the closing brace, all on one line. -/
def scanEntries : Nat → Nat → Scan (List (List String × Toml))
  | 0, _ => Scan.refuse
  | fuel + 1, depth => do
    let path ← scanKey
    Scan.char '='
    skipBlank
    let v ← scanValue fuel depth
    skipBlank
    if ← Scan.charIf '\x7d' then return [(path, v)]
    Scan.char ','
    return (path, v) :: (← scanEntries fuel depth)

end

/-- The statement of a line that is not blank. -/
def scanStatement (fuel : Nat) : Scan Statement := do
  match ← Scan.rest with
  | '[' :: '[' :: s =>
    set s
    let path ← scanKey
    Scan.literal [']', ']']
    endLine
    return .element path
  | '[' :: s =>
    set s
    let path ← scanKey
    Scan.char ']'
    endLine
    return .table path
  | _ =>
    let path ← scanKey
    Scan.char '='
    skipBlank
    let v ← scanValue fuel 0
    endLine
    return .entry path v

def scanStatements (fuel : Nat) : Nat → Scan (List Statement)
  | 0 => Scan.refuse
  | lines + 1 => do
    skipBlank
    match ← Scan.peek with
    | none => return []
    | some c =>
      if c = '#' || c = '\n' || c = '\r' then
        endLine
        scanStatements fuel lines
      else
        return (← scanStatement fuel) :: (← scanStatements fuel lines)

/-- A byte order mark may come first. -/
def scanDocument (fuel : Nat) : Scan (List Statement) := do
  let _ ← Scan.charIf '\ufeff'
  scanStatements fuel fuel

/-- The table of a whole text. Values and what they hold take at least one character each, so twice
the length bounds every recursion. -/
def read? (s : String) : Option Toml := do
  let cs := s.toList
  ofStatements (← Scan.whole (scanDocument (2 * cs.length + 2)) cs)

end Toml

end EquivalentCircuit
