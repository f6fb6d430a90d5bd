import EquivalentCircuit.TapChanger.Basic
import EquivalentCircuit.Diagnostics.Basic

/-! Combining tap changers and moving them to the other end of their branch. The combination of
two is their product: a step for each pair of steps, the second index running fastest. What it
reports is a function of its own, so the value never depends on the reports. -/

namespace EquivalentCircuit

variable {α : Type} [Scalar α]

/-- One growth on top of another: `(1 + a)(1 + b) - 1`. -/
def composeDeviation (a b : α) : α := a + b + a * b

def TapStep.compose (s t : TapStep α) : TapStep α where
  rho := s.rho * t.rho
  angle := s.angle + t.angle
  rdr := composeDeviation s.rdr t.rdr
  rdx := composeDeviation s.rdx t.rdx
  rdg := composeDeviation s.rdg t.rdg
  rdb := composeDeviation s.rdb t.rdb

/-- The step as seen from the opposite end; deviations do not depend on the side. -/
def TapStep.relocate (s : TapStep α) : TapStep α := { s with rho := 1 / s.rho, angle := -s.angle }

def TapStep.negateAngle (s : TapStep α) : TapStep α := { s with angle := -s.angle }

namespace TapChanger

/-- The control that the combination keeps: an active one before an idle one, and of two alike
the first. -/
def keptRegulation (a b : TapChanger α) : Option (Regulation α) :=
  match a.isRegulating, b.isRegulating with
  | false, true => b.regulation
  | true, _ => a.regulation
  | false, false => a.regulation.or b.regulation

/-- The product of two tap changers, numbered so that its neutral position is zero. -/
def product (a b : TapChanger α) : TapChanger α where
  id := a.id ++ "+" ++ b.id
  lowTapPosition := -Int32.ofNat (a.neutralStep * b.steps.length + b.neutralStep)
  steps := a.steps.flatMap fun s => b.steps.map fun t => s.compose t
  neutralStep := a.neutralStep * b.steps.length + b.neutralStep
  tapPosition := a.tapPosition * b.steps.length + b.tapPosition
  regulation := keptRegulation a b

def conflictMessage (a b : TapChanger α) : String :=
  s!"tap changers {a.id} and {b.id} both regulate; keeping regulation of {a.id}"

/-- Two tap changers at one end; one alone stays as it is. -/
def combine : Option (TapChanger α) → Option (TapChanger α) → Option (TapChanger α)
  | some a, some b => some (product a b)
  | a, b => a.or b

/-- What combining reports: a conflict where both carry an active control. -/
def conflicts : Option (TapChanger α) → Option (TapChanger α) → Diagnostics
  | some a, some b =>
    if a.isRegulating && b.isRegulating then
      [.warning .conflictingRegulation (conflictMessage a b) a.id]
    else []
  | _, _ => []

/-- The same tap changer at the opposite end of its branch. -/
def relocate (t : TapChanger α) : TapChanger α := { t with steps := t.steps.map .relocate }

def negateAngles (t : TapChanger α) : TapChanger α := { t with steps := t.steps.map .negateAngle }

end TapChanger

end EquivalentCircuit
