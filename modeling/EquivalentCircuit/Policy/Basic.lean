import EquivalentCircuit.Transformer.Winding

/-! Conversion policies. Each axis is a closed choice or a flag, and no axis depends on the value
of another. -/

namespace EquivalentCircuit

/-- Where the tap changers of a two-winding transformer are placed. -/
inductive TapPlacement where
  | end1
  | end2
  /-- Each tap changer stays at its own end. -/
  | ownEnd
  /-- All go to the end without series reactance. -/
  | reactanceFree
deriving DecidableEq

/-- Where the shunt admittance of a two-winding transformer is placed. -/
inductive ShuntPlacement where
  | end1
  | end2
  | ownEnd
  /-- Half of the total at each end. -/
  | split
deriving DecidableEq

/-- Which end carries a structural ratio other than one. -/
inductive RatioPlacement where
  | end1
  | end2
  | reactanceFree
deriving DecidableEq

/-- Source of the reference voltage of the star bus. -/
inductive StarVoltage where
  /-- The rated voltage of winding 1. -/
  | starBusSide
  /-- One kilovolt; the ratios stay distributed over the legs. -/
  | networkSide
  | end1
  | end2
  | end3
deriving DecidableEq

/-- Where the shunt admittance of a leg is placed. -/
inductive LegShunt where
  | networkSide
  | starBusSide
  | split
deriving DecidableEq

namespace TapPlacement

def all : List TapPlacement := [end1, end2, ownEnd, reactanceFree]

def name : TapPlacement → String
  | end1 => "END1"
  | end2 => "END2"
  | ownEnd => "END1_END2"
  | reactanceFree => "X"

def ofName? (s : String) : Option TapPlacement := all.find? (·.name = s)

end TapPlacement

namespace ShuntPlacement

def all : List ShuntPlacement := [end1, end2, ownEnd, split]

def name : ShuntPlacement → String
  | end1 => "END1"
  | end2 => "END2"
  | ownEnd => "END1_END2"
  | split => "SPLIT"

def ofName? (s : String) : Option ShuntPlacement := all.find? (·.name = s)

end ShuntPlacement

namespace RatioPlacement

def all : List RatioPlacement := [end1, end2, reactanceFree]

def name : RatioPlacement → String
  | end1 => "END1"
  | end2 => "END2"
  | reactanceFree => "X"

def ofName? (s : String) : Option RatioPlacement := all.find? (·.name = s)

end RatioPlacement

namespace StarVoltage

def all : List StarVoltage := [starBusSide, networkSide, end1, end2, end3]

def name : StarVoltage → String
  | starBusSide => "STAR_BUS_SIDE"
  | networkSide => "NETWORK_SIDE"
  | end1 => "END1"
  | end2 => "END2"
  | end3 => "END3"

def ofName? (s : String) : Option StarVoltage := all.find? (·.name = s)

end StarVoltage

namespace LegShunt

def all : List LegShunt := [networkSide, starBusSide, split]

def name : LegShunt → String
  | networkSide => "NETWORK_SIDE"
  | starBusSide => "STAR_BUS_SIDE"
  | split => "SPLIT"

def ofName? (s : String) : Option LegShunt := all.find? (·.name = s)

end LegShunt

structure TwoWindingPolicy where
  taps : TapPlacement := .ownEnd
  shunt : ShuntPlacement := .ownEnd
  structuralRatio : RatioPlacement := .reactanceFree
  /-- Flip the sign of every phase angle. -/
  phaseNegate : Bool := false
deriving DecidableEq

structure LegPolicy where
  /-- Tap changers sit at the network side, not at the star bus. -/
  tapsAtNetworkSide : Bool := true
  shunt : LegShunt := .networkSide
  /-- The structural ratio is moved away from the star bus. It has no effect where the reference
  voltage is that of the network side. -/
  ratioAtStarBus : Bool := true
deriving DecidableEq

structure ThreeWindingPolicy where
  starVoltage : StarVoltage := .starBusSide
  legs : PerWinding LegPolicy := ⟨{}, {}, {}⟩
deriving DecidableEq

structure Policy where
  twoWinding : TwoWindingPolicy := {}
  threeWinding : ThreeWindingPolicy := {}
  /-- Carry phase-angle clocks into the converted model. -/
  clocks : Bool := false
deriving DecidableEq

end EquivalentCircuit
