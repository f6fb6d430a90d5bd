import EquivalentCircuit.Policy.Tree
import EquivalentCircuit.Proofs.ByName
import EquivalentCircuit.Proofs.Words

/-! Policies written as trees and read back. All that is asked of a format is that records, flags,
choices and triples come back as what they were written as; the members of a record may be
reordered, since they are looked up by name. -/

namespace EquivalentCircuit

open PolicySource PolicyTarget

/-- Values as written, seen as the values that they are read as. -/
structure ReadsBack {ν μ : Type} [PolicyTarget ν] [PolicySource μ] (view : ν → μ) : Prop where
  members : ∀ (names : List String) (ms : List (String × ν)), ms.map Prod.fst = names →
    names.Nodup → (∀ n ∈ names, IsWord n) →
      ∃ ms', members? names (view (ofMembers ms)) = some ms' ∧
        ∀ name, ms'.lookup name = (ms.lookup name).map view
  flag : ∀ b, flag? (view (ofFlag b)) = some b
  name : ∀ s, IsWord s → name? (view (ofName s)) = some s
  triple : ∀ l m n : List (String × ν),
    triple? (view (ofTriple ⟨ofMembers l, ofMembers m, ofMembers n⟩)) =
      some ⟨view (ofMembers l), view (ofMembers m), view (ofMembers n)⟩

theorem TapPlacement.ofName?_name (p : TapPlacement) : ofName? p.name = some p := by
  cases p <;> rfl

theorem ShuntPlacement.ofName?_name (p : ShuntPlacement) : ofName? p.name = some p := by
  cases p <;> rfl

theorem RatioPlacement.ofName?_name (p : RatioPlacement) : ofName? p.name = some p := by
  cases p <;> rfl

theorem StarVoltage.ofName?_name (v : StarVoltage) : ofName? v.name = some v := by
  cases v <;> rfl

theorem LegShunt.ofName?_name (s : LegShunt) : ofName? s.name = some s := by
  cases s <;> rfl

/-! The names of members are words. -/

theorem TwoWindingPolicy.isWord_names : ∀ n ∈ names, IsWord n := by decide

theorem LegPolicy.isWord_names : ∀ n ∈ names, IsWord n := by decide

theorem ThreeWindingPolicy.isWord_names : ∀ n ∈ names, IsWord n := by decide

theorem Policy.isWord_names : ∀ n ∈ names, IsWord n := by decide

namespace PolicySource

variable {μ β : Type}

theorem member_eq (ms : List (String × μ)) (name : String) (d : β) (read : μ → Option β) :
    member ms name d read = (ms.lookup name).elim (some d) read := by
  rw [member]
  cases ms.lookup name <;> rfl

end PolicySource

namespace ReadsBack

variable {ν μ : Type} [PolicyTarget ν] [PolicySource μ] {view : ν → μ}

theorem choice {β : Type} {ofName? : String → Option β} (h : ReadsBack view) {s : String}
    (hs : IsWord s) : choice? ofName? (view (ofName s)) = ofName? s := by
  rw [choice?, h.name s hs, Option.bind_some]

theorem ofTree?_twoWinding (h : ReadsBack view) (p : TwoWindingPolicy) :
    TwoWindingPolicy.ofTree? (view p.toTree) = some p := by
  obtain ⟨ms, hms, hlookup⟩ := h.members TwoWindingPolicy.names [
    ("ratio_phase", ofName p.taps.name), ("shunt", ofName p.shunt.name),
    ("structural_ratio", ofName p.structuralRatio.name), ("phase_negate", ofFlag p.phaseNegate)]
    rfl (by decide) TwoWindingPolicy.isWord_names
  have hnames : members? TwoWindingPolicy.names (view p.toTree) = some ms := hms
  simp [TwoWindingPolicy.ofTree?, hnames, member_eq, hlookup, lookup_cons_eq_ite,
    h.choice (TapPlacement.isWord_name _), h.choice (ShuntPlacement.isWord_name _),
    h.choice (RatioPlacement.isWord_name _), h.flag, TapPlacement.ofName?_name,
    ShuntPlacement.ofName?_name, RatioPlacement.ofName?_name]

theorem ofTree?_leg (h : ReadsBack view) (p : LegPolicy) :
    LegPolicy.ofTree? (view p.toTree) = some p := by
  obtain ⟨ms, hms, hlookup⟩ := h.members LegPolicy.names [
    ("ratio_phase_network_side", ofFlag p.tapsAtNetworkSide), ("shunt", ofName p.shunt.name),
    ("ratio0_at_star_bus", ofFlag p.ratioAtStarBus)] rfl (by decide) LegPolicy.isWord_names
  have hnames : members? LegPolicy.names (view p.toTree) = some ms := hms
  simp [LegPolicy.ofTree?, hnames, member_eq, hlookup, lookup_cons_eq_ite,
    h.choice (LegShunt.isWord_name _), h.flag, LegShunt.ofName?_name]

theorem ofTree?_threeWinding (h : ReadsBack view) (p : ThreeWindingPolicy) :
    ThreeWindingPolicy.ofTree? (view p.toTree) = some p := by
  obtain ⟨ms, hms, hlookup⟩ := h.members ThreeWindingPolicy.names [
    ("rated_uf", ofName p.starVoltage.name),
    ("windings", ofTriple ⟨p.legs.one.toTree, p.legs.two.toTree, p.legs.three.toTree⟩)]
    rfl (by decide) ThreeWindingPolicy.isWord_names
  have hnames : members? ThreeWindingPolicy.names (view p.toTree) = some ms := hms
  have hlegs :
      triple? (view (ofTriple ⟨p.legs.one.toTree, p.legs.two.toTree, p.legs.three.toTree⟩)) =
        some ⟨view p.legs.one.toTree, view p.legs.two.toTree, view p.legs.three.toTree⟩ :=
    h.triple _ _ _
  simp [ThreeWindingPolicy.ofTree?, hnames, member_eq, hlookup, lookup_cons_eq_ite,
    h.choice (StarVoltage.isWord_name _), StarVoltage.ofName?_name, hlegs, PerWinding.mapM,
    h.ofTree?_leg]

theorem ofTree?_toTree (h : ReadsBack view) (p : Policy) :
    Policy.ofTree? (view p.toTree) = some p := by
  obtain ⟨ms, hms, hlookup⟩ := h.members Policy.names [
    ("xfmr2", p.twoWinding.toTree), ("xfmr3", p.threeWinding.toTree),
    ("phase_angle_clock_enabled", ofFlag p.clocks)] rfl (by decide) Policy.isWord_names
  have hnames : members? Policy.names (view p.toTree) = some ms := hms
  simp [Policy.ofTree?, hnames, member_eq, hlookup, lookup_cons_eq_ite, h.ofTree?_twoWinding,
    h.ofTree?_threeWinding, h.flag]

end ReadsBack

end EquivalentCircuit
