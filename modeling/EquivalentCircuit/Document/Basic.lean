import EquivalentCircuit.TapChanger.Table
import EquivalentCircuit.Transformer.Ends

/-! Documents of raw transformers: what an input file states, before its tap tables are built and
its values are checked. -/

namespace EquivalentCircuit

structure RawEnd (α : Type) where
  r : α
  x : α
  g : α
  b : α
  ratedU : α
  terminal : String
  clock : UInt8
  ratioTapChanger : Option (TapChangerSpec α)
  phaseTapChanger : Option (TapChangerSpec α)
deriving DecidableEq

structure RawTwoWinding (α : Type) where
  id : String
  end1 : RawEnd α
  end2 : RawEnd α
deriving DecidableEq

structure RawThreeWinding (α : Type) where
  id : String
  /-- Windings in order; a sound one has three. -/
  windings : List (RawEnd α)
deriving DecidableEq

structure Document (α : Type) where
  twoWinding : List (RawTwoWinding α)
  threeWinding : List (RawThreeWinding α)
deriving DecidableEq

variable {α : Type} [Scalar α]

/-- The end with its tap changers built, the ratio one first. -/
def RawEnd.build (e : RawEnd α) : Checked α (WindingEnd α) := do
  let ratio ← e.ratioTapChanger.mapM TapChangerSpec.build
  let phase ← e.phaseTapChanger.mapM TapChangerSpec.build
  return ⟨e.r, e.x, e.g, e.b, ⟨e.ratedU⟩, e.terminal, e.clock, ratio, phase⟩

def RawTwoWinding.build (t : RawTwoWinding α) : Checked α (TwoWindingEnds α) := do
  let ends : TwoWindingEnds α := ⟨t.id, ← t.end1.build, ← t.end2.build⟩
  ends.check
  return ends

def RawThreeWinding.build (t : RawThreeWinding α) : Checked α (ThreeWindingEnds α) := do
  match PerWinding.ofList? t.windings with
  | none => throw ⟨t.id, .windingCount t.windings.length⟩
  | some windings =>
    let ends : ThreeWindingEnds α := ⟨t.id, ← windings.mapM RawEnd.build⟩
    ends.check
    return ends

namespace Document

omit [Scalar α]

def size (d : Document α) : Nat := d.twoWinding.length + d.threeWinding.length

def isEmpty (d : Document α) : Bool := d.twoWinding.isEmpty && d.threeWinding.isEmpty

end Document

end EquivalentCircuit
