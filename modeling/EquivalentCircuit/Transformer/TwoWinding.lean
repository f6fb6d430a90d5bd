import EquivalentCircuit.Transformer.Ends
import EquivalentCircuit.Transformer.Model
import EquivalentCircuit.Transformer.PiSection
import EquivalentCircuit.Transformer.TapSlots
import EquivalentCircuit.Policy.Basic

/-! Converting two-winding transformers. The policy assigns tap changers, shunts and the structural
ratio to the two ends; then all that is at end2 moves to end1. -/

namespace EquivalentCircuit

/-- The end at which all tap changers meet, if the policy gathers them. -/
def TapPlacement.target? (free1 : Bool) : TapPlacement → Option Side
  | .end1 => some .end1
  | .end2 => some .end2
  | .ownEnd => none
  | .reactanceFree => some (if free1 then .end1 else .end2)

variable {α : Type} [Scalar α]

/-- The shunts of two ends assigned by the policy. -/
def ShuntPlacement.assign (s : Shunts α) : ShuntPlacement → Shunts α
  | .end1 => ⟨s.totalG, s.totalB, 0, 0⟩
  | .end2 => ⟨0, 0, s.totalG, s.totalB⟩
  | .ownEnd => s
  | .split =>
    let g := s.totalG * Scalar.half
    let b := s.totalB * Scalar.half
    ⟨g, b, g, b⟩

namespace TwoWindingEnds

/-- Does end1 have no series reactance of its own? -/
def reactanceFree1 (t : TwoWindingEnds α) : Bool := Scalar.isZero t.end1.x

omit [Scalar α] in
def slots (t : TwoWindingEnds α) : TapSlots α :=
  ⟨t.end1.ratioTapChanger, t.end1.phaseTapChanger, t.end2.ratioTapChanger, t.end2.phaseTapChanger⟩

def placedSlots (t : TwoWindingEnds α) (p : TwoWindingPolicy) : TapSlots α :=
  let placed := t.slots.place (p.taps.target? t.reactanceFree1)
  if p.phaseNegate then placed.negatePhase else placed

omit [Scalar α] in
def rawShunts (t : TwoWindingEnds α) : Shunts α := ⟨t.end1.g, t.end1.b, t.end2.g, t.end2.b⟩

/-- Does a structural ratio sit at end2? Equal rated voltages have none. -/
def ratioAtEnd2 (t : TwoWindingEnds α) (p : TwoWindingPolicy) : Bool :=
  !t.end1.ratedU.equal t.end2.ratedU &&
    match p.structuralRatio with
    | .end1 => false
    | .end2 => true
    | .reactanceFree => !t.reactanceFree1

/-- The series impedance of both ends with the assigned shunts. -/
def rawSection (t : TwoWindingEnds α) (p : TwoWindingPolicy) : PiSection α :=
  .ofShunts (t.end1.r + t.end2.r) (t.end1.x + t.end2.x) (p.shunt.assign t.rawShunts)

/-- The section after a structural ratio at end2 has moved to end1. -/
def movedSection (t : TwoWindingEnds α) (p : TwoWindingPolicy) : Checked α (PiSection α) :=
  if t.ratioAtEnd2 p then (t.rawSection p).relocate (t.end2.ratedU.ratio t.end1.ratedU) ⟨0⟩
  else .ok (t.rawSection p)

omit [Scalar α] in
def carriedClock (t : TwoWindingEnds α) (p : Policy) : UInt8 := if p.clocks then t.end2.clock else 0

omit [Scalar α] in
/-- The model has no clock at end1. -/
def clockIssues (t : TwoWindingEnds α) (p : Policy) : Diagnostics :=
  if p.clocks && t.end1.clock != 0 then
    [.warning .unsupportedModeling
      s!"phase angle clock {t.end1.clock.toNat} at end1 is not supported and was dropped" t.id]
  else []

def diagnostics (t : TwoWindingEnds α) (p : Policy) : Diagnostics :=
  t.clockIssues p ++ t.slots.placeConflicts (p.twoWinding.taps.target? t.reactanceFree1) ++
    (t.placedSlots p.twoWinding).moveConflicts

/-- The model that goes with a moved section. -/
def modelOf (t : TwoWindingEnds α) (p : Policy) (s : PiSection α) : TwoWindingModel α where
  id := t.id
  r := s.r
  x := s.x
  end1 :=
    { g := s.g1 + s.g2
      b := s.b1 + s.b2
      ratioTapChanger := (t.placedSlots p.twoWinding).ratio
      phaseTapChanger := (t.placedSlots p.twoWinding).phase
      ratedU := t.end1.ratedU
      terminal := t.end1.terminal }
  end2 := { ratedU := t.end2.ratedU, terminal := t.end2.terminal }
  clock := t.carriedClock p

def convert (p : Policy) (t : TwoWindingEnds α) :
    Checked α (Conversion α (TwoWindingModel α)) := do
  t.check
  let moved ← t.movedSection p.twoWinding
  let model := t.modelOf p moved
  return ⟨model, ControlRecord.ofTwoWinding model, t.diagnostics p⟩

end TwoWindingEnds

end EquivalentCircuit
