/-! Reading a text from its front. A `Scan` takes characters off the front and may refuse. -/

namespace EquivalentCircuit

abbrev Scan (β : Type) := StateT (List Char) Option β

namespace Scan

variable {β : Type}

def refuse : Scan β := fun _ => none

def require (b : Bool) : Scan Unit := fun s => if b then some ((), s) else none

def ofOption : Option β → Scan β
  | some b => pure b
  | none => refuse

def peek : Scan (Option Char) := fun s => some (s.head?, s)

def next : Scan Char
  | [] => none
  | c :: s => some (c, s)

def char (c : Char) : Scan Unit
  | [] => none
  | d :: s => if c = d then some ((), s) else none

/-- Takes the character if it comes next and says whether it did. -/
def charIf (c : Char) : Scan Bool
  | [] => some (false, [])
  | d :: s => if c = d then some (true, s) else some (false, d :: s)

/-- The given characters, one after the other. -/
def literal : List Char → Scan Unit
  | [] => pure ()
  | c :: cs => do char c; literal cs

def takeWhile (p : Char → Bool) : Scan (List Char) := fun s => some (s.span p)

/-- Exactly `n` characters. -/
def take : Nat → Scan (List Char)
  | 0 => pure []
  | n + 1 => do
    let c ← next
    let cs ← take n
    return c :: cs

def rest : Scan (List Char) := fun s => some (s, s)

/-- The value of a text read to its end. -/
def whole (scan : Scan β) (s : List Char) : Option β :=
  match scan s with
  | some (b, []) => some b
  | _ => none

end Scan

/-- The number written by digits of a base up to sixteen; other characters count as zero. -/
def digitValue (c : Char) : Nat :=
  if c.isDigit then c.toNat - '0'.toNat
  else if 'a' ≤ c ∧ c ≤ 'f' then c.toNat - 'a'.toNat + 10
  else if 'A' ≤ c ∧ c ≤ 'F' then c.toNat - 'A'.toNat + 10
  else 0

def isHexDigit (c : Char) : Bool := c.isDigit || ('a' ≤ c && c ≤ 'f') || ('A' ≤ c && c ≤ 'F')

def ofDigits (base : Nat) (cs : List Char) : Nat :=
  cs.foldl (fun n c => n * base + digitValue c) 0

end EquivalentCircuit
