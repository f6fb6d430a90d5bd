import EquivalentCircuit.TapChanger.Algebra

/-! The tap changers of a branch by its ends. Those of one kind are combined where they meet: at the
end that gathers them, and at end1 after those of end2 have moved there. -/

namespace EquivalentCircuit

open TapChanger (combine conflicts)

inductive Side where
  | end1
  | end2
deriving DecidableEq

/-- The tap changers of both ends. -/
structure TapSlots (α : Type) where
  ratio1 : Option (TapChanger α)
  phase1 : Option (TapChanger α)
  ratio2 : Option (TapChanger α)
  phase2 : Option (TapChanger α)
deriving DecidableEq

variable {α : Type} [Scalar α]

namespace TapSlots

/-- Combines the tap changers of both ends, those of the target first. -/
def gather (s : TapSlots α) : Side → TapSlots α
  | .end1 => ⟨combine s.ratio1 s.ratio2, combine s.phase1 s.phase2, none, none⟩
  | .end2 => ⟨none, none, combine s.ratio2 s.ratio1, combine s.phase2 s.phase1⟩

def gatherConflicts (s : TapSlots α) : Side → Diagnostics
  | .end1 => conflicts s.ratio1 s.ratio2 ++ conflicts s.phase1 s.phase2
  | .end2 => conflicts s.ratio2 s.ratio1 ++ conflicts s.phase2 s.phase1

def place (s : TapSlots α) : Option Side → TapSlots α
  | some side => s.gather side
  | none => s

def placeConflicts (s : TapSlots α) : Option Side → Diagnostics
  | some side => s.gatherConflicts side
  | none => []

def negatePhase (s : TapSlots α) : TapSlots α :=
  { s with phase1 := s.phase1.map .negateAngles, phase2 := s.phase2.map .negateAngles }

/-- The ratio tap changer at end1 after that of end2 has moved there. -/
def ratio (s : TapSlots α) : Option (TapChanger α) := combine s.ratio1 (s.ratio2.map .relocate)

def phase (s : TapSlots α) : Option (TapChanger α) := combine s.phase1 (s.phase2.map .relocate)

def moveConflicts (s : TapSlots α) : Diagnostics :=
  conflicts s.ratio1 (s.ratio2.map .relocate) ++ conflicts s.phase1 (s.phase2.map .relocate)

end TapSlots

end EquivalentCircuit
