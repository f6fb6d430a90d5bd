import EquivalentCircuit.Yaml.Token

/-! From a text to its tokens. -/

namespace EquivalentCircuit

namespace Yaml

/-- Characters of a tag as they are; the flow indicators only in one between angle brackets. -/
def isTagChar (verbatim : Bool) (c : Char) : Bool :=
  isNameChar c || c ∈ ";/?:@&=+$.!~*'()".toList || (verbatim && c ∈ ",[]".toList)

/-- What may follow a name at once. -/
def endsName : List Char → Bool
  | [] => true
  | c :: _ => isBlank c || isBreak c || c ∈ "?:,]\x7d%@\x60".toList

/-- The first characters that begin something other than a plain text. -/
def isIndicator (c : Char) : Bool := c ∈ "-?:,[]\x7b\x7d#&*!|>'\"%@\x60".toList

def beginsPlain (inFlow : Bool) : List Char → Bool
  | [] => false
  | '-' :: s => !s.head?.any isBlank
  | c :: s =>
    !(isBlank c || isBreak c || isIndicator c) ||
      (!inFlow && (c = '?' || c = ':') && !endsWord s)

/-- The byte of a percent escape. -/
def scanByte : Read UInt8 := do
  Read.require ((← Read.next) = '%')
  let high ← Read.next
  let low ← Read.next
  Read.require (isHexDigit high && isHexDigit low)
  return (ofDigits 16 [high, low]).toUInt8

def scanTrailingBytes : Nat → Read (List UInt8)
  | 0 => return []
  | n + 1 => do
    let b ← scanByte
    Read.require (b / 64 = 2)
    return b :: (← scanTrailingBytes n)

/-- The bytes of one percent escape, as many as the first one calls for. -/
def scanEscapedBytes : Read (List UInt8) := do
  let lead ← scanByte
  let trailing ←
    if lead < 0x80 then pure 0
    else if lead / 32 = 6 then pure 1
    else if lead / 16 = 14 then pure 2
    else if lead / 8 = 30 then pure 3
    else Read.refuse
  return lead :: (← scanTrailingBytes trailing)

def scanTagText (verbatim : Bool) : Nat → Read Tag
  | 0 => Read.refuse
  | fuel + 1 => do
    match ← Read.peek with
    | some '%' => return (← scanEscapedBytes) ++ (← scanTagText verbatim fuel)
    | some c =>
      if isTagChar verbatim c then
        Read.skip
        return c.toUInt8 :: (← scanTagText verbatim fuel)
      else return []
    | none => return []

def scanTagRest (verbatim : Bool) : Read Tag := do
  scanTagText verbatim ((← get).text.length + 1)

/-- An exclamation mark, a name and perhaps another exclamation mark. -/
def scanHandle : Read (List Char) := do
  Read.require ((← Read.next) = '!')
  let name ← Read.takeWhile isNameChar
  if (← Read.peek) = some '!' then
    Read.skip
    return '!' :: name ++ ['!']
  else return '!' :: name

/-- A tag as a handle and a suffix; one without a handle has all in its suffix. -/
def scanTag (inFlow : Bool) : Read Token := do
  let (handle, suffix) ←
    if (← get).text.tail.head? = some '<' then do
      Read.skip
      Read.skip
      let suffix ← scanTagRest true
      Read.require (!suffix.isEmpty && (← Read.next) = '>')
      pure ([], suffix)
    else do
      let handle ← scanHandle
      let suffix ← scanTagRest false
      if handle.length > 1 && handle.getLast? = some '!' then
        Read.require !suffix.isEmpty
        pure (handle, suffix)
      else
        let suffix : Tag := handle.tail.map Char.toUInt8 ++ suffix
        if suffix.beforeNull.isEmpty then pure ([], Tag.ofText "!") else pure (['!'], suffix)
  let rest := (← get).text
  Read.require (endsWord rest || (inFlow && rest.head? = some ','))
  return .tag (String.ofList handle) suffix.beforeNull

/-- The name after the sign of an anchor or a reference. -/
def scanName : Read String := do
  Read.skip
  let name ← Read.takeWhile isNameChar
  Read.require (!name.isEmpty && endsName (← get).text)
  return String.ofList name

/-- A number of at most nine digits. -/
def scanVersionNumber : Read Nat := do
  let ds ← Read.takeWhile Char.isDigit
  Read.require (!ds.isEmpty && ds.length ≤ 9)
  return ofDigits 10 ds

/-- A directive up to the end of its line. -/
def scanDirective : Read Token := do
  Read.skip
  let name ← Read.takeWhile isNameChar
  Read.require (!name.isEmpty && endsWord (← get).text)
  let _ ← Read.takeWhile isBlank
  let directive ←
    if name = "YAML".toList then do
      let major ← scanVersionNumber
      Read.require ((← Read.next) = '.')
      pure (Token.version major (← scanVersionNumber))
    else if name = "TAG".toList then do
      let handle ← scanHandle
      Read.require (handle.length = 1 || handle.getLast? = some '!')
      Read.require ((← get).text.head?.any isBlank)
      let _ ← Read.takeWhile isBlank
      let tagPrefix ← scanTagRest true
      Read.require (!tagPrefix.isEmpty && endsWord (← get).text)
      pure (Token.tagHandle (String.ofList handle) tagPrefix.beforeNull)
    else Read.refuse
  Read.endLine
  return directive

namespace Lex

/-- Past blanks, comments and line breaks. Where a key may begin in a block, a tab is no blank. A
byte order mark may stand at the beginning of each line and takes up a column. -/
def skipToToken : Nat → Lex Unit
  | 0 => refuse
  | fuel + 1 => do
    let s ← get
    let cursor :=
      if s.cursor.column = 0 && s.cursor.text.head? = some '\ufeff' then s.cursor.advance 1
      else s.cursor
    let cursor := cursor.skipWhile fun c => c = ' ' || (c = '\t' && (s.inFlow || !s.keyAllowed))
    let cursor :=
      if cursor.text.head? = some '#' then cursor.skipWhile fun c => !isBreak c else cursor
    if cursor.text.head?.any isBreak then
      set { s with cursor := cursor.skipBreak, keyAllowed := s.keyAllowed || !s.inFlow }
      skipToToken fuel
    else set { s with cursor := cursor }

def fetchEnd : Lex Unit := do
  closeBlocks fun _ => true
  dropKey

def fetchDirective : Lex Unit := do
  fetchEnd
  allowKey false
  emit (← read scanDirective)

/-- A mark between documents. -/
def fetchDocumentMark (t : Token) : Lex Unit := do
  fetchEnd
  allowKey false
  read do
    Read.skip
    Read.skip
    Read.skip
  emit t

def fetchFlowStart (t : Token) : Lex Unit := do
  saveKey
  modify fun s => { s with keys := none :: s.keys, keyAllowed := true }
  read Read.skip
  emit t

def fetchFlowEnd (t : Token) : Lex Unit := do
  dropKey
  require (← get).inFlow
  modify fun s => { s with keys := s.keys.tail, keyAllowed := false }
  read Read.skip
  emit t

def fetchFlowEntry : Lex Unit := do
  dropKey
  allowKey true
  read Read.skip
  emit .flowEntry

/-- An entry of a block collection begins here. -/
def beginEntry (t : Token) : Lex Unit := do
  let s ← get
  unless s.inFlow do
    require s.keyAllowed
    openBlock s.cursor.column s.tokens.size t

def fetchBlockEntry : Lex Unit := do
  beginEntry .blockSequenceStart
  dropKey
  allowKey true
  read Read.skip
  emit .blockEntry

def fetchKey : Lex Unit := do
  beginEntry .blockMappingStart
  dropKey
  allowKey !(← get).inFlow
  read Read.skip
  emit .key

/-- A colon makes a key of what may be one. -/
def fetchValue : Lex Unit := do
  match (← get).currentKey? with
  | some k =>
    emitAt k.number .key
    openBlock k.column k.number .blockMappingStart
    setKey none
    allowKey false
  | none =>
    require !((← get).keys.head?.join.any (·.required))
    beginEntry .blockMappingStart
    allowKey !(← get).inFlow
  read Read.skip
  emit .value

/-- A token that may be a key. -/
def fetchNode (scan : Read Token) : Lex Unit := do
  saveKey
  allowKey false
  emit (← read scan)

def fetchBlockScalar (style : ScalarStyle) (fuel : Nat) : Lex Unit := do
  dropKey
  allowKey true
  let least := (← get).contentColumn
  read Read.skip
  let text ← read (scanBlock style least fuel)
  emit (.scalar style (String.ofList text))

def fetchQuoted (single : Bool) (fuel : Nat) : Lex Unit :=
  fetchNode do
    Read.skip
    return .scalar .quoted (String.ofList (← scanQuoted single [] fuel))

/-- A plain text; after a line break behind it a key may begin. -/
def fetchPlain (fuel : Nat) : Lex Unit := do
  saveKey
  let s ← get
  let (text, broken) ← read (scanPlain s.inFlow s.contentColumn [] Gap.none fuel)
  allowKey broken
  emit (.scalar .plain (String.ofList text.reverse))

/-- The token that begins here, where more text is left, but fewer characters than the fuel. -/
def fetch (fuel : Nat) : Lex Unit := do
  let s ← get
  let text := s.cursor.text
  let flow := s.inFlow
  if s.cursor.column = 0 && text.head? = some '%' then fetchDirective
  else if s.cursor.atDocumentMark then
    fetchDocumentMark (if text.head? = some '-' then .documentStart else .documentEnd)
  else match text with
    | [] => refuse
    | c :: rest =>
      if c = '[' then fetchFlowStart .flowSequenceStart
      else if c = '\x7b' then fetchFlowStart .flowMappingStart
      else if c = ']' then fetchFlowEnd .flowSequenceEnd
      else if c = '\x7d' then fetchFlowEnd .flowMappingEnd
      else if c = ',' then fetchFlowEntry
      else if c = '-' && endsWord rest then fetchBlockEntry
      else if c = '?' && (flow || endsWord rest) then fetchKey
      else if c = ':' && (flow || endsWord rest) then fetchValue
      else if c = '*' then fetchNode (Token.reference <$> scanName)
      else if c = '&' then fetchNode (Token.anchor <$> scanName)
      else if c = '!' then fetchNode (scanTag flow)
      else if c = '|' && !flow then fetchBlockScalar .literal fuel
      else if c = '>' && !flow then fetchBlockScalar .folded fuel
      else if c = '\'' then fetchQuoted true fuel
      else if c = '"' then fetchQuoted false fuel
      else if beginsPlain flow text then fetchPlain fuel
      else refuse

/-- All tokens up to the end of the text. Each of them takes at least one character, so the fuel
stays above the number of characters left. -/
def fetchAll : Nat → Lex Unit
  | 0 => refuse
  | fuel + 1 => do
    skipToToken (fuel + 1)
    let column := (← get).cursor.column
    if (← get).cursor.text.isEmpty then fetchEnd
    else
      closeBlocks (column < ·)
      fetch (fuel + 1)
      fetchAll fuel

end Lex

/-- The tokens of a text. -/
def tokens? (s : String) : Option (List Token) := do
  let text := s.toList
  guard (text.all isAllowed)
  let (_, lexer) ← Lex.fetchAll (text.length + 1) (Lexer.start text)
  return lexer.tokens.toList

end Yaml

end EquivalentCircuit
