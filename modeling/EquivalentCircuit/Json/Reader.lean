import EquivalentCircuit.Json.Value

/-! Reading JSON texts: strict syntax, no limit on nesting for values that are skipped. A text is
read by its bytes, each as the character of its number, and what stands between quotes is UTF-8. -/

namespace EquivalentCircuit

namespace Json

def isBlank (c : Char) : Bool := c == ' ' || c == '\n' || c == '\t' || c == '\r'

def skipBlank : Scan Unit := do
  let _ ← Scan.takeWhile isBlank

/-- A part of a text: a byte or a UTF-16 unit written as an escape. -/
inductive TextPart where
  | plain (c : Char)
  | unit (n : Nat)

/-- The character that a backslash and the given letter stand for. -/
def escaped? : Char → Option Char
  | '"' => some '"'
  | '\\' => some '\\'
  | '/' => some '/'
  | 'b' => some '\x08'
  | 'f' => some '\x0c'
  | 'n' => some '\n'
  | 'r' => some '\r'
  | 't' => some '\t'
  | _ => none

/-- The parts up to the closing quote. -/
def scanParts (parts : List TextPart) : List Char → Option (List TextPart × List Char)
  | '"' :: s => some (parts.reverse, s)
  | '\\' :: 'u' :: a :: b :: c :: d :: s =>
    if [a, b, c, d].all isHexDigit then scanParts (.unit (ofDigits 16 [a, b, c, d]) :: parts) s
    else none
  | '\\' :: c :: s => (escaped? c).bind fun e => scanParts (.plain e :: parts) s
  | c :: s => if ' ' ≤ c then scanParts (.plain c :: parts) s else none
  | [] => none

def isHighSurrogate (n : Nat) : Bool := 0xd800 ≤ n && n < 0xdc00

def isLowSurrogate (n : Nat) : Bool := 0xdc00 ≤ n && n < 0xe000

/-- The bytes of a text; a surrogate counts only in a pair of escapes. -/
def joinParts : List TextPart → Option (List UInt8)
  | [] => some []
  | .plain c :: ps => (joinParts ps).map (c.toUInt8 :: ·)
  | .unit n :: .unit m :: ps =>
    if isHighSurrogate n && isLowSurrogate m then
      let c := Char.ofNat (0x10000 + (n - 0xd800) * 0x400 + (m - 0xdc00))
      (joinParts ps).map (String.utf8EncodeChar c ++ ·)
    else if isHighSurrogate n || isLowSurrogate n then none
    else (joinParts (.unit m :: ps)).map (String.utf8EncodeChar (Char.ofNat n) ++ ·)
  | .unit n :: ps =>
    if isHighSurrogate n || isLowSurrogate n then none
    else (joinParts ps).map (String.utf8EncodeChar (Char.ofNat n) ++ ·)

/-- The text after its opening quote, or nothing where a surrogate stands alone or the bytes spell
no text. -/
def scanText : Scan (Option String) := do
  let parts ← scanParts []
  return (joinParts parts).bind fun bytes => String.fromUTF8? ⟨bytes.toArray⟩

/-- The deepest nesting at which a list or a record still has a value. -/
def deepest : Nat := 127

/-- The record of the members, if each of them has a name. -/
def ofMembers (members : List (Option String × Json)) : Json :=
  match members.mapM fun (name, j) => name.map (·, j) with
  | some ms => record ms
  | none => unreadable

def limited (depth : Nat) (j : Json) : Json := if depth ≤ deepest then j else unreadable

mutual

/-- A value that lies inside `depth` lists and records; blanks around it are not part of it. -/
def scanValue : Nat → Nat → Scan Json
  | 0, _ => Scan.refuse
  | fuel + 1, depth => do
    match ← Scan.peek with
    | some 'n' => Scan.literal "null".toList; return null
    | some 't' => Scan.literal "true".toList; return bool true
    | some 'f' => Scan.literal "false".toList; return bool false
    | some '"' =>
      Scan.char '"'
      match ← scanText with
      | some s => return text s
      | none => return unreadable
    | some '[' =>
      Scan.char '['
      skipBlank
      if ← Scan.charIf ']' then return limited (depth + 1) (list [])
      return limited (depth + 1) (list (← scanItems fuel (depth + 1)))
    | some '\x7b' =>
      Scan.char '\x7b'
      skipBlank
      if ← Scan.charIf '\x7d' then return limited (depth + 1) (record [])
      return limited (depth + 1) (ofMembers (← scanMembers fuel (depth + 1)))
    | _ =>
      match (← JsonNumber.Literal.scan).value with
      | some n => return number n
      | none => return unreadable

/-- The items up to the closing bracket. -/
def scanItems : Nat → Nat → Scan (List Json)
  | 0, _ => Scan.refuse
  | fuel + 1, depth => do
    let j ← scanValue fuel depth
    skipBlank
    if ← Scan.charIf ']' then return [j]
    Scan.char ','
    skipBlank
    return j :: (← scanItems fuel depth)

/-- The members up to the closing brace. -/
def scanMembers : Nat → Nat → Scan (List (Option String × Json))
  | 0, _ => Scan.refuse
  | fuel + 1, depth => do
    Scan.char '"'
    let name ← scanText
    skipBlank
    Scan.char ':'
    skipBlank
    let j ← scanValue fuel depth
    skipBlank
    if ← Scan.charIf '\x7d' then return [(name, j)]
    Scan.char ','
    skipBlank
    return (name, j) :: (← scanMembers fuel depth)

end

def scanDocument (fuel : Nat) : Scan Json := do
  skipBlank
  let j ← scanValue fuel 0
  skipBlank
  return j

/-- The value that bytes spell. A value and what it holds take at least one byte each, so twice the
length bounds the recursion. -/
def readBytes? (b : ByteArray) : Option Json :=
  let cs := b.toList.map fun x => Char.ofNat x.toNat
  Scan.whole (scanDocument (2 * cs.length + 2)) cs

/-- The value of a whole text. -/
def read? (s : String) : Option Json := readBytes? s.toUTF8

end Json

end EquivalentCircuit
