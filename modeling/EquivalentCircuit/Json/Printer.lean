import EquivalentCircuit.Json.Value

/-! Writing JSON texts, compact or with an indentation of two spaces. -/

namespace EquivalentCircuit

namespace Json

def hexDigit (n : Nat) : Char := (Nat.digitChar n)

/-- What stands for a character between quotes. -/
def escape (c : Char) : List Char :=
  if c = '"' then ['\\', '"']
  else if c = '\\' then ['\\', '\\']
  else if c = '\x08' then ['\\', 'b']
  else if c = '\t' then ['\\', 't']
  else if c = '\n' then ['\\', 'n']
  else if c = '\x0c' then ['\\', 'f']
  else if c = '\r' then ['\\', 'r']
  else if c < ' ' then ['\\', 'u', '0', '0', hexDigit (c.toNat / 16), hexDigit (c.toNat % 16)]
  else [c]

def quoted (s : String) : List Char := '"' :: (s.toList.flatMap escape ++ ['"'])

def numberChars : JsonNumber → List Char
  | .integer n => (toString n).toList
  | .real x => (numberText .json x).toList

mutual

def compactOnto : Json → List Char → List Char
  | null, tail => "null".toList ++ tail
  | bool true, tail => "true".toList ++ tail
  | bool false, tail => "false".toList ++ tail
  | number n, tail => numberChars n ++ tail
  | text s, tail => quoted s ++ tail
  | list [], tail => '[' :: ']' :: tail
  | list (j :: js), tail => '[' :: compactOnto j (compactItems js (']' :: tail))
  | record [], tail => '\x7b' :: '\x7d' :: tail
  | record ((n, j) :: ms), tail =>
    '\x7b' :: (quoted n ++ ':' :: compactOnto j (compactMembers ms ('\x7d' :: tail)))
  | unreadable, tail => "null".toList ++ tail

def compactItems : List Json → List Char → List Char
  | [], tail => tail
  | j :: js, tail => ',' :: compactOnto j (compactItems js tail)

def compactMembers : List (String × Json) → List Char → List Char
  | [], tail => tail
  | (n, j) :: ms, tail => ',' :: (quoted n ++ ':' :: compactOnto j (compactMembers ms tail))

end

/-- The text without blanks. -/
def compact (j : Json) : String := String.ofList (compactOnto j [])

/-- A new line at the given depth. -/
def lineAt (depth : Nat) : List Char := '\n' :: List.replicate (2 * depth) ' '

mutual

def prettyOnto : Nat → Json → List Char → List Char
  | depth, list (j :: js), tail =>
    '[' :: (lineAt (depth + 1) ++
      prettyOnto (depth + 1) j (prettyItems (depth + 1) js (lineAt depth ++ ']' :: tail)))
  | depth, record ((n, j) :: ms), tail =>
    '\x7b' :: (lineAt (depth + 1) ++ quoted n ++ ':' :: ' ' ::
      prettyOnto (depth + 1) j (prettyMembers (depth + 1) ms (lineAt depth ++ '\x7d' :: tail)))
  | _, j, tail => compactOnto j tail

def prettyItems : Nat → List Json → List Char → List Char
  | _, [], tail => tail
  | depth, j :: js, tail =>
    ',' :: (lineAt depth ++ prettyOnto depth j (prettyItems depth js tail))

def prettyMembers : Nat → List (String × Json) → List Char → List Char
  | _, [], tail => tail
  | depth, (n, j) :: ms, tail =>
    ',' :: (lineAt depth ++ quoted n ++ ':' :: ' ' ::
      prettyOnto depth j (prettyMembers depth ms tail))

end

/-- The text with a line for each item and member. -/
def pretty (j : Json) : String := String.ofList (prettyOnto 0 j [])

end Json

end EquivalentCircuit
