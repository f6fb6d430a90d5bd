import EquivalentCircuit.Policy.Basic

/-! Policies as trees of a configuration format. A format says how its values stand for records,
flags, choices and triples; what a policy consists of is said once for reading and once for
writing. -/

namespace EquivalentCircuit

/-- Values of a format from which policies are read. -/
class PolicySource (ν : Type) where
  /-- The members of the given names, where the value can stand for a record. -/
  members? : List String → ν → Option (List (String × ν))
  flag? : ν → Option Bool
  /-- The name of a choice. -/
  name? : ν → Option String
  /-- One value for each winding. -/
  triple? : ν → Option (PerWinding ν)

/-- Values of a format as which policies are written. -/
class PolicyTarget (ν : Type) where
  ofMembers : List (String × ν) → ν
  ofFlag : Bool → ν
  ofName : String → ν
  ofTriple : PerWinding ν → ν

namespace PolicySource

variable {ν β : Type} [PolicySource ν]

/-- A member, or its default where it is absent. -/
def member (ms : List (String × ν)) (name : String) (d : β) (read : ν → Option β) : Option β :=
  match ms.lookup name with
  | none => some d
  | some v => read v

def choice? (ofName? : String → Option β) (v : ν) : Option β := (name? v).bind ofName?

end PolicySource

open PolicySource PolicyTarget

variable {ν : Type}

namespace TwoWindingPolicy

def names : List String := ["ratio_phase", "shunt", "structural_ratio", "phase_negate"]

def ofTree? [PolicySource ν] (v : ν) : Option TwoWindingPolicy := do
  let ms ← members? names v
  let d : TwoWindingPolicy := {}
  return {
    taps := ← member ms "ratio_phase" d.taps (choice? TapPlacement.ofName?)
    shunt := ← member ms "shunt" d.shunt (choice? ShuntPlacement.ofName?)
    structuralRatio :=
      ← member ms "structural_ratio" d.structuralRatio (choice? RatioPlacement.ofName?)
    phaseNegate := ← member ms "phase_negate" d.phaseNegate flag? }

def toTree [PolicyTarget ν] (p : TwoWindingPolicy) : ν :=
  ofMembers [
    ("ratio_phase", ofName p.taps.name), ("shunt", ofName p.shunt.name),
    ("structural_ratio", ofName p.structuralRatio.name), ("phase_negate", ofFlag p.phaseNegate)]

end TwoWindingPolicy

namespace LegPolicy

def names : List String := ["ratio_phase_network_side", "shunt", "ratio0_at_star_bus"]

def ofTree? [PolicySource ν] (v : ν) : Option LegPolicy := do
  let ms ← members? names v
  let d : LegPolicy := {}
  return {
    tapsAtNetworkSide := ← member ms "ratio_phase_network_side" d.tapsAtNetworkSide flag?
    shunt := ← member ms "shunt" d.shunt (choice? LegShunt.ofName?)
    ratioAtStarBus := ← member ms "ratio0_at_star_bus" d.ratioAtStarBus flag? }

def toTree [PolicyTarget ν] (p : LegPolicy) : ν :=
  ofMembers [
    ("ratio_phase_network_side", ofFlag p.tapsAtNetworkSide), ("shunt", ofName p.shunt.name),
    ("ratio0_at_star_bus", ofFlag p.ratioAtStarBus)]

end LegPolicy

namespace ThreeWindingPolicy

def names : List String := ["rated_uf", "windings"]

def ofTree? [PolicySource ν] (v : ν) : Option ThreeWindingPolicy := do
  let ms ← members? names v
  let d : ThreeWindingPolicy := {}
  return {
    starVoltage := ← member ms "rated_uf" d.starVoltage (choice? StarVoltage.ofName?)
    legs := ← member ms "windings" d.legs fun v => (triple? v).bind (·.mapM LegPolicy.ofTree?) }

def toTree [PolicyTarget ν] (p : ThreeWindingPolicy) : ν :=
  ofMembers [
    ("rated_uf", ofName p.starVoltage.name),
    ("windings", ofTriple ⟨p.legs.one.toTree, p.legs.two.toTree, p.legs.three.toTree⟩)]

end ThreeWindingPolicy

namespace Policy

def names : List String := ["xfmr2", "xfmr3", "phase_angle_clock_enabled"]

def ofTree? [PolicySource ν] (v : ν) : Option Policy := do
  let ms ← members? names v
  let d : Policy := {}
  return {
    twoWinding := ← member ms "xfmr2" d.twoWinding TwoWindingPolicy.ofTree?
    threeWinding := ← member ms "xfmr3" d.threeWinding ThreeWindingPolicy.ofTree?
    clocks := ← member ms "phase_angle_clock_enabled" d.clocks flag? }

def toTree [PolicyTarget ν] (p : Policy) : ν :=
  ofMembers [
    ("xfmr2", p.twoWinding.toTree), ("xfmr3", p.threeWinding.toTree),
    ("phase_angle_clock_enabled", ofFlag p.clocks)]

end Policy

end EquivalentCircuit
