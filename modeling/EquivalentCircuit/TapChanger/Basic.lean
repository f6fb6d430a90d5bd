import EquivalentCircuit.Fault

/-! Tap changers. Steps are ordered by ascending tap position; the neutral and the current position
are indices into them. `TapChanger.fault?` says what is wrong with one, and `TapChanger.ofSteps`
builds only those with which nothing is. -/

namespace EquivalentCircuit

/-- One position of a tap changer. `rho` multiplies the voltage of the end that carries it; the
deviations are fractions by which the resistance, reactance, conductance and susceptance of that
end grow. -/
structure TapStep (α : Type) where
  rho : α
  angle : Degrees α
  rdr : α
  rdx : α
  rdg : α
  rdb : α
deriving DecidableEq

/-- Quantity a regulating tap changer controls. -/
inductive RegulationMode where
  | voltage
  | activePower
  | currentFlow
  | fixed
deriving DecidableEq

structure Regulation (α : Type) where
  mode : RegulationMode
  targetValue : α
  targetDeadband : α
  targetTerminal : Option String
  enabled : Bool
deriving DecidableEq

structure TapChanger (α : Type) where
  id : String
  lowTapPosition : Int32
  steps : List (TapStep α)
  neutralStep : Nat
  tapPosition : Nat
  regulation : Option (Regulation α)
deriving DecidableEq

variable {α : Type} [Scalar α]

/-- A step without deviations. -/
def TapStep.plain (rho : α) (angle : Degrees α) : TapStep α := ⟨rho, angle, 0, 0, 0, 0⟩

/-- Equality of numbers, so a step may differ from itself. -/
def TapStep.equal (s t : TapStep α) : Bool :=
  Scalar.equal s.rho t.rho && s.angle.equal t.angle && Scalar.equal s.rdr t.rdr &&
    Scalar.equal s.rdx t.rdx && Scalar.equal s.rdg t.rdg && Scalar.equal s.rdb t.rdb

def Regulation.equal (r s : Regulation α) : Bool :=
  decide (r.mode = s.mode) && Scalar.equal r.targetValue s.targetValue &&
    Scalar.equal r.targetDeadband s.targetDeadband && r.targetTerminal == s.targetTerminal &&
    r.enabled == s.enabled

/-- An integer as a tap position, if it is one. -/
def position? (n : Int) : Option Int32 :=
  if Int32.minValue.toInt ≤ n ∧ n ≤ Int32.maxValue.toInt then some (Int32.ofInt n) else none

/-- Equality of two optional values by the given test. -/
def equalOption {β : Type} (equal : β → β → Bool) : Option β → Option β → Bool
  | none, none => true
  | some a, some b => equal a b
  | _, _ => false

/-- The first fault of the step with the given index. -/
def TapStep.fault? (index : Nat) (s : TapStep α) : Option (Fault α) :=
  if !Scalar.isFinite s.rho || !Scalar.isPositive s.rho then some (.stepRatio index s.rho)
  else if !(s.angle.isFinite && [s.rdr, s.rdx, s.rdg, s.rdb].all Scalar.isFinite) then
    some (.stepNotFinite index)
  else none

namespace TapChanger

/-- The position of the last step as an unbounded integer. -/
def lastPosition (t : TapChanger α) : Int := t.lowTapPosition.toInt + t.steps.length - 1

/-- The position of the last step, reckoned from left to right in the numbers that positions have:
there is none if a value on the way is no position. -/
def highTapPosition? (t : TapChanger α) : Option Int32 := do
  let next ← position? (t.lowTapPosition.toInt + (Int32.ofNat t.steps.length).toInt)
  position? (next.toInt - 1)

def neutral? (t : TapChanger α) : Option (TapStep α) := t.steps[t.neutralStep]?

def current? (t : TapChanger α) : Option (TapStep α) := t.steps[t.tapPosition]?

/-- Is there an active control? -/
def isRegulating (t : TapChanger α) : Bool := t.regulation.any (·.enabled)

def isPhaseShifting (t : TapChanger α) : Bool :=
  t.steps.any fun s => !Scalar.isZero s.angle.value

def withRegulation (t : TapChanger α) (r : Regulation α) : TapChanger α :=
  { t with regulation := some r }

def fault? (t : TapChanger α) : Option (Fault α) :=
  if t.steps.isEmpty then some .noSteps
  else if t.steps.length > maxTapSteps then some (.tooManySteps t.steps.length)
  else if t.lastPosition > Int32.maxValue.toInt then some (.positionsOverflow t.lowTapPosition)
  else if t.neutralStep ≥ t.steps.length then some (.neutralIndex t.neutralStep t.steps.length)
  else if t.tapPosition ≥ t.steps.length then some (.tapIndex t.tapPosition t.steps.length)
  else t.steps.zipIdx.findSome? fun (s, index) => s.fault? index

def check (t : TapChanger α) : Checked α Unit :=
  match t.fault? with
  | some fault => .error ⟨t.id, fault⟩
  | none => .ok ()

/-- A checked tap changer without control. -/
def ofSteps (id : String) (low : Int32) (steps : List (TapStep α)) (neutral tap : Nat) :
    Checked α (TapChanger α) := do
  let t : TapChanger α := ⟨id, low, steps, neutral, tap, none⟩
  t.check
  return t

def equal (t u : TapChanger α) : Bool :=
  t.id == u.id && t.lowTapPosition == u.lowTapPosition && t.steps.length == u.steps.length &&
    (t.steps.zip u.steps).all (fun (a, b) => a.equal b) && t.neutralStep == u.neutralStep &&
    t.tapPosition == u.tapPosition && equalOption Regulation.equal t.regulation u.regulation

end TapChanger

end EquivalentCircuit
