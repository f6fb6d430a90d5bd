/-! Windings of a three-winding transformer, and values given for each of them. -/

namespace EquivalentCircuit

inductive WindingIndex where
  | one
  | two
  | three
deriving DecidableEq

namespace WindingIndex

def all : List WindingIndex := [one, two, three]

/-- Position in a list of windings, from zero. -/
def index : WindingIndex → Nat
  | one => 0
  | two => 1
  | three => 2

/-- Number of the winding, from one. -/
def number (w : WindingIndex) : Nat := w.index + 1

def text (w : WindingIndex) : String := s!"winding {w.number}"

end WindingIndex

/-- A value for each of the three windings. -/
structure PerWinding (β : Type) where
  one : β
  two : β
  three : β
deriving DecidableEq

namespace PerWinding

variable {β γ : Type}

def get (p : PerWinding β) : WindingIndex → β
  | .one => p.one
  | .two => p.two
  | .three => p.three

def toList (p : PerWinding β) : List β := [p.one, p.two, p.three]

def ofList? : List β → Option (PerWinding β)
  | [a, b, c] => some ⟨a, b, c⟩
  | _ => none

/-- The three results in winding order; the first failure wins. -/
def mapM {m : Type → Type} [Monad m] (f : β → m γ) (p : PerWinding β) : m (PerWinding γ) := do
  let a ← f p.one
  let b ← f p.two
  let c ← f p.three
  return ⟨a, b, c⟩

end PerWinding

/-- Each winding at its own place. -/
def WindingIndex.each : PerWinding WindingIndex := ⟨.one, .two, .three⟩

end EquivalentCircuit
