import EquivalentCircuit.TapChanger.Basic
import EquivalentCircuit.Transformer.Winding

/-! Transformers as described by their ends: impedance, shunt, rated voltage and tap changers of
each, before anything is moved. -/

namespace EquivalentCircuit

structure WindingEnd (α : Type) where
  r : α
  x : α
  g : α
  b : α
  ratedU : Kilovolts α
  terminal : String
  clock : UInt8
  ratioTapChanger : Option (TapChanger α)
  phaseTapChanger : Option (TapChanger α)
deriving DecidableEq

structure TwoWindingEnds (α : Type) where
  id : String
  end1 : WindingEnd α
  end2 : WindingEnd α
deriving DecidableEq

structure ThreeWindingEnds (α : Type) where
  id : String
  windings : PerWinding (WindingEnd α)
deriving DecidableEq

variable {α : Type} [Scalar α]

namespace WindingEnd

/-- What is wrong with the end itself, its tap changers apart. -/
def fault? (e : WindingEnd α) : Option (Fault α) :=
  if !e.ratedU.isFinite || !Scalar.isPositive e.ratedU.value then
    some (.ratedVoltage e.terminal e.ratedU.value)
  else if !([e.r, e.x, e.g, e.b].all Scalar.isFinite) then some (.endNotFinite e.terminal)
  else if e.clock > maxClock then some (.clock e.terminal e.clock)
  else none

/-- Checks the end, then its ratio and its phase tap changer; `entity` owns the end. -/
def check (entity : String) (e : WindingEnd α) : Checked α Unit := do
  match e.fault? with
  | some fault => throw ⟨entity, fault⟩
  | none => pure ()
  e.ratioTapChanger.forM TapChanger.check
  e.phaseTapChanger.forM TapChanger.check

end WindingEnd

def TwoWindingEnds.check (t : TwoWindingEnds α) : Checked α Unit := do
  t.end1.check t.id
  t.end2.check t.id

def ThreeWindingEnds.check (t : ThreeWindingEnds α) : Checked α Unit := do
  t.windings.one.check t.id
  t.windings.two.check t.id
  t.windings.three.check t.id

end EquivalentCircuit
