import EquivalentCircuit.Transformer.Ends
import EquivalentCircuit.Transformer.Model
import EquivalentCircuit.Transformer.PiSection
import EquivalentCircuit.Transformer.TapSlots
import EquivalentCircuit.Policy.Basic

/-! Converting three-winding transformers. Three legs meet at a star bus with a reference voltage;
each is converted on its own, end1 being the network side and end2 the star bus. -/

namespace EquivalentCircuit

variable {α : Type} [Scalar α]

/-- The shunt of a leg assigned by the policy. -/
def LegShunt.assign (g b : α) : LegShunt → Shunts α
  | .networkSide => ⟨g, b, 0, 0⟩
  | .starBusSide => ⟨0, 0, g, b⟩
  | .split => ⟨g * Scalar.half, b * Scalar.half, g * Scalar.half, b * Scalar.half⟩

namespace WindingEnd

omit [Scalar α] in
/-- The tap changers of the leg, at the network side or at the star bus. -/
def legSlots (p : LegPolicy) (w : WindingEnd α) : TapSlots α :=
  if p.tapsAtNetworkSide then ⟨w.ratioTapChanger, w.phaseTapChanger, none, none⟩
  else ⟨none, none, w.ratioTapChanger, w.phaseTapChanger⟩

omit [Scalar α] in
/-- The clock a leg keeps; the model has none at winding 1. -/
def legClock (clocks : Bool) (index : WindingIndex) (w : WindingEnd α) : UInt8 :=
  if clocks && index ≠ .one then w.clock else 0

/-- The section of the leg, with its ratio moved away from the star bus if `relocates`. -/
def legSection (ratedUf : Kilovolts α) (relocates : Bool) (p : LegPolicy) (w : WindingEnd α) :
    Checked α (PiSection α) :=
  let s := PiSection.ofShunts w.r w.x (p.shunt.assign w.g w.b)
  if relocates then s.relocate (ratedUf.ratio w.ratedU) ⟨0⟩ else .ok s

/-- The leg that goes with a moved section. -/
def legOf (clocks : Bool) (index : WindingIndex) (p : LegPolicy) (w : WindingEnd α)
    (s : PiSection α) : LegModel α where
  index := index
  r := s.r
  x := s.x
  end1 :=
    { g := s.g1
      b := s.b1
      ratioTapChanger := (w.legSlots p).ratio
      phaseTapChanger := (w.legSlots p).phase
      clock := w.legClock clocks index
      ratedU := w.ratedU
      terminal := w.terminal }
  end2 := { g := s.g2, b := s.b2 }

end WindingEnd

namespace StarVoltage

/-- The reference voltage. The star bus side is that of winding 1, whichever winding is meant. -/
def select (t : ThreeWindingEnds α) : StarVoltage → Kilovolts α
  | .starBusSide => t.windings.one.ratedU
  | .networkSide => ⟨1⟩
  | .end1 => t.windings.one.ratedU
  | .end2 => t.windings.two.ratedU
  | .end3 => t.windings.three.ratedU

/-- Do legs have a ratio towards the star bus at all? -/
def refersLegs (v : StarVoltage) : Bool := v ≠ .networkSide

end StarVoltage

namespace ThreeWindingEnds

def leg (p : Policy) (t : ThreeWindingEnds α) (index : WindingIndex) : Checked α (LegModel α) := do
  let policy := p.threeWinding.legs.get index
  let w := t.windings.get index
  let relocates := p.threeWinding.starVoltage.refersLegs && policy.ratioAtStarBus
  let s ← w.legSection (p.threeWinding.starVoltage.select t) relocates policy
  return w.legOf p.clocks index policy s

omit [Scalar α] in
/-- The model has no clock at winding 1. -/
def clockIssues (p : Policy) (t : ThreeWindingEnds α) : Diagnostics :=
  let clock := t.windings.one.clock
  if p.clocks && clock != 0 then
    [.warning .unsupportedModeling
      s!"phase angle clock {clock.toNat} at {WindingIndex.one.text} is not supported and was dropped"
      t.id]
  else []

/-- What moving the tap changers of the legs reports, leg by leg. -/
def tapConflicts (p : Policy) (t : ThreeWindingEnds α) : Diagnostics :=
  WindingIndex.all.flatMap fun i =>
    ((t.windings.get i).legSlots (p.threeWinding.legs.get i)).moveConflicts

def convert (p : Policy) (t : ThreeWindingEnds α) :
    Checked α (Conversion α (ThreeWindingModel α)) := do
  t.check
  let legs ← WindingIndex.each.mapM (t.leg p)
  let model : ThreeWindingModel α := ⟨t.id, p.threeWinding.starVoltage.select t, legs⟩
  return ⟨model, ControlRecord.ofThreeWinding model, t.clockIssues p ++ t.tapConflicts p⟩

end ThreeWindingEnds

end EquivalentCircuit
