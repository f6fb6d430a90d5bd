import EquivalentCircuit.TapChanger.Basic
import EquivalentCircuit.Transformer.Winding
import EquivalentCircuit.Diagnostics.Basic

/-! Converted transformers. Every tap changer and every structural ratio sits at end1, the network
side; a model has one shunt per two-winding transformer and one per leg of a three-winding one. -/

namespace EquivalentCircuit

structure TwoWindingModel.End1 (α : Type) where
  g : α
  b : α
  ratioTapChanger : Option (TapChanger α)
  phaseTapChanger : Option (TapChanger α)
  ratedU : Kilovolts α
  terminal : String
deriving DecidableEq

structure TwoWindingModel.End2 (α : Type) where
  ratedU : Kilovolts α
  terminal : String
deriving DecidableEq

structure TwoWindingModel (α : Type) where
  id : String
  r : α
  x : α
  end1 : TwoWindingModel.End1 α
  end2 : TwoWindingModel.End2 α
  /-- Clock of end2 relative to end1; zero unless clocks are carried. -/
  clock : UInt8
deriving DecidableEq

structure LegModel.End1 (α : Type) where
  g : α
  b : α
  ratioTapChanger : Option (TapChanger α)
  phaseTapChanger : Option (TapChanger α)
  clock : UInt8
  ratedU : Kilovolts α
  terminal : String
deriving DecidableEq

structure LegModel.End2 (α : Type) where
  g : α
  b : α
deriving DecidableEq

/-- One leg; end1 is the network side, end2 the star bus. -/
structure LegModel (α : Type) where
  index : WindingIndex
  r : α
  x : α
  end1 : LegModel.End1 α
  end2 : LegModel.End2 α
deriving DecidableEq

structure ThreeWindingModel (α : Type) where
  id : String
  /-- Reference voltage of the star bus. -/
  ratedUf : Kilovolts α
  legs : PerWinding (LegModel α)
deriving DecidableEq

inductive TapChangerKind where
  | ratio
  | phase
deriving DecidableEq

/-- The control of one converted tap changer. -/
structure ControlRecord (α : Type) where
  kind : TapChangerKind
  /-- The leg of a three-winding transformer; two-winding ones have none. -/
  winding : Option WindingIndex
  tapChanger : String
  regulation : Regulation α
deriving DecidableEq

/-- A converted transformer with the controls of its tap changers and what was met on the way. -/
structure Conversion (α β : Type) where
  model : β
  controls : List (ControlRecord α)
  diagnostics : Diagnostics

variable {α : Type} [Scalar α]

/-- The ratio of the rated voltages that the model shows. -/
def TwoWindingModel.structuralRatio (t : TwoWindingModel α) : α := t.end2.ratedU.ratio t.end1.ratedU

def LegModel.totalG (l : LegModel α) : α := l.end1.g + l.end2.g

def LegModel.totalB (l : LegModel α) : α := l.end1.b + l.end2.b

namespace ControlRecord

omit [Scalar α]

/-- The record of a tap changer that carries a control. -/
def ofTapChanger (kind : TapChangerKind) (winding : Option WindingIndex) :
    Option (TapChanger α) → List (ControlRecord α)
  | some t => (t.regulation.map fun r => ⟨kind, winding, t.id, r⟩).toList
  | none => []

def ofTwoWinding (t : TwoWindingModel α) : List (ControlRecord α) :=
  ofTapChanger .ratio none t.end1.ratioTapChanger ++
    ofTapChanger .phase none t.end1.phaseTapChanger

def ofLeg (l : LegModel α) : List (ControlRecord α) :=
  ofTapChanger .ratio (some l.index) l.end1.ratioTapChanger ++
    ofTapChanger .phase (some l.index) l.end1.phaseTapChanger

def ofThreeWinding (t : ThreeWindingModel α) : List (ControlRecord α) := t.legs.toList.flatMap ofLeg

def isActive (r : ControlRecord α) : Bool := r.regulation.enabled

end ControlRecord

end EquivalentCircuit
