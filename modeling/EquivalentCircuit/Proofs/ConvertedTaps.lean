import Mathlib.Data.Option.Basic
import EquivalentCircuit.Proofs.Checked
import EquivalentCircuit.Proofs.Product

/-! The tap changers of converted models. Each is put together from tap changers of the ends by
negating angles, moving and combining, so what these three keep holds of all that a conversion
gives. -/

namespace EquivalentCircuit

structure PlacedTap (α : Type) where
  kind : TapChangerKind
  winding : Option WindingIndex
  tap : TapChanger α

variable {α : Type}

def placedTaps (winding : Option WindingIndex) (ratio phase : Option (TapChanger α)) :
    List (PlacedTap α) :=
  (ratio.map (PlacedTap.mk .ratio winding)).toList ++
    (phase.map (PlacedTap.mk .phase winding)).toList

theorem forall_mem_placedTaps {winding : Option WindingIndex} {ratio phase : Option (TapChanger α)}
    {P : TapChanger α → Prop} :
    (∀ t ∈ placedTaps winding ratio phase, P t.tap) ↔ (∀ t ∈ ratio, P t) ∧ ∀ t ∈ phase, P t := by
  simp only [placedTaps, List.mem_append, Option.mem_toList, Option.mem_def,
    Option.map_eq_some_iff, or_imp, forall_and, forall_exists_index, and_imp,
    forall_apply_eq_imp_iff₂]

def TwoWindingModel.taps (t : TwoWindingModel α) : List (PlacedTap α) :=
  placedTaps none t.end1.ratioTapChanger t.end1.phaseTapChanger

def ThreeWindingModel.taps (t : ThreeWindingModel α) : List (PlacedTap α) :=
  WindingIndex.all.flatMap fun i =>
    placedTaps (some i) (t.legs.get i).end1.ratioTapChanger (t.legs.get i).end1.phaseTapChanger

structure WindingEnd.AllTaps (P : TapChanger α → Prop) (e : WindingEnd α) : Prop where
  ratio : ∀ t ∈ e.ratioTapChanger, P t
  phase : ∀ t ∈ e.phaseTapChanger, P t

structure TapSlots.AllTaps (P : TapChanger α → Prop) (s : TapSlots α) : Prop where
  ratio1 : ∀ t ∈ s.ratio1, P t
  phase1 : ∀ t ∈ s.phase1, P t
  ratio2 : ∀ t ∈ s.ratio2, P t
  phase2 : ∀ t ∈ s.phase2, P t

theorem WindingEnd.AllTaps.legSlots {P : TapChanger α → Prop} {e : WindingEnd α} (h : e.AllTaps P)
    (p : LegPolicy) : (e.legSlots p).AllTaps P := by
  unfold WindingEnd.legSlots
  cases p.tapsAtNetworkSide with
  | false => exact ⟨nofun, nofun, h.ratio, h.phase⟩
  | true => exact ⟨h.ratio, h.phase, nofun, nofun⟩

variable [Scalar α]

/-- A property that no step of a conversion takes from a tap changer. -/
structure KeptByMoves (P : TapChanger α → Prop) : Prop where
  product : ∀ {a b : TapChanger α}, P a → P b → P (a.product b)
  relocate : ∀ {t : TapChanger α}, P t → P t.relocate
  negateAngles : ∀ {t : TapChanger α}, P t → P t.negateAngles

namespace KeptByMoves

variable {P : TapChanger α → Prop} {a b : Option (TapChanger α)}

theorem combine (h : KeptByMoves P) (ha : ∀ t ∈ a, P t) (hb : ∀ t ∈ b, P t) :
    ∀ t ∈ TapChanger.combine a b, P t :=
  TapChanger.forall_mem_combine (fun _ => id) (fun _ => id) (fun _ _ => h.product) ha hb

theorem map_relocate (h : KeptByMoves P) (ha : ∀ t ∈ a, P t) : ∀ t ∈ a.map .relocate, P t :=
  Option.forall_mem_map.2 fun t ht => h.relocate (ha t ht)

theorem map_negateAngles (h : KeptByMoves P) (ha : ∀ t ∈ a, P t) :
    ∀ t ∈ a.map .negateAngles, P t :=
  Option.forall_mem_map.2 fun t ht => h.negateAngles (ha t ht)

end KeptByMoves

namespace TapSlots.AllTaps

variable {P : TapChanger α → Prop} {s : TapSlots α}

theorem place (hs : s.AllTaps P) (h : KeptByMoves P) (side : Option Side) :
    (s.place side).AllTaps P := by
  match side with
  | none => exact hs
  | some .end1 =>
    exact ⟨h.combine hs.ratio1 hs.ratio2, h.combine hs.phase1 hs.phase2, nofun, nofun⟩
  | some .end2 =>
    exact ⟨nofun, nofun, h.combine hs.ratio2 hs.ratio1, h.combine hs.phase2 hs.phase1⟩

theorem negatePhase (hs : s.AllTaps P) (h : KeptByMoves P) : s.negatePhase.AllTaps P :=
  ⟨hs.ratio1, h.map_negateAngles hs.phase1, hs.ratio2, h.map_negateAngles hs.phase2⟩

theorem ratio (hs : s.AllTaps P) (h : KeptByMoves P) : ∀ t ∈ s.ratio, P t :=
  h.combine hs.ratio1 (h.map_relocate hs.ratio2)

theorem phase (hs : s.AllTaps P) (h : KeptByMoves P) : ∀ t ∈ s.phase, P t :=
  h.combine hs.phase1 (h.map_relocate hs.phase2)

end TapSlots.AllTaps

section Conversion

variable {P : TapChanger α → Prop} {p : Policy}

theorem TwoWindingEnds.allTaps_placedSlots {t : TwoWindingEnds α} (h : KeptByMoves P)
    (h1 : t.end1.AllTaps P) (h2 : t.end2.AllTaps P) (p : TwoWindingPolicy) :
    (t.placedSlots p).AllTaps P := by
  have hs : t.slots.AllTaps P := ⟨h1.ratio, h1.phase, h2.ratio, h2.phase⟩
  have hp := hs.place h (p.taps.target? t.reactanceFree1)
  unfold placedSlots
  cases p.phaseNegate with
  | false => exact hp
  | true => exact hp.negatePhase h

theorem TwoWindingEnds.forall_mem_taps {t : TwoWindingEnds α}
    {c : Conversion α (TwoWindingModel α)} (h : KeptByMoves P) (h1 : t.end1.AllTaps P)
    (h2 : t.end2.AllTaps P) (hc : t.convert p = .ok c) : ∀ u ∈ c.model.taps, P u.tap := by
  obtain ⟨-, s, -, rfl⟩ := convert_eq_ok.1 hc
  have hs := allTaps_placedSlots h h1 h2 p.twoWinding
  exact forall_mem_placedTaps.2 ⟨hs.ratio h, hs.phase h⟩

/-- A leg is made of its winding; only the section can fail. -/
theorem ThreeWindingEnds.exists_leg_of_convert {t : ThreeWindingEnds α}
    {c : Conversion α (ThreeWindingModel α)} (hc : t.convert p = .ok c) (i : WindingIndex) :
    ∃ s, c.model.legs.get i = (t.windings.get i).legOf p.clocks i (p.threeWinding.legs.get i) s := by
  obtain ⟨-, legs, hlegs, rfl⟩ := convert_eq_ok.1 hc
  obtain ⟨s, -, hs⟩ := Checked.bind_eq_ok.1 (WindingIndex.mapM_each_eq_ok.1 hlegs i)
  exact ⟨s, (Except.ok.inj hs).symm⟩

/-- The tap changers of a leg are those of its slots. -/
theorem ThreeWindingEnds.forall_mem_taps_of_slots {t : ThreeWindingEnds α}
    {c : Conversion α (ThreeWindingModel α)} (hc : t.convert p = .ok c)
    (h : ∀ i, (∀ u ∈ ((t.windings.get i).legSlots (p.threeWinding.legs.get i)).ratio, P u) ∧
      ∀ u ∈ ((t.windings.get i).legSlots (p.threeWinding.legs.get i)).phase, P u) :
    ∀ u ∈ c.model.taps, P u.tap := by
  intro u hu
  obtain ⟨i, -, hu⟩ := List.mem_flatMap.1 hu
  obtain ⟨s, hs⟩ := exists_leg_of_convert hc i
  rw [hs] at hu
  exact (forall_mem_placedTaps (P := P)).2 (h i) u hu

theorem ThreeWindingEnds.forall_mem_taps {t : ThreeWindingEnds α}
    {c : Conversion α (ThreeWindingModel α)} (h : KeptByMoves P)
    (ht : ∀ i, (t.windings.get i).AllTaps P) (hc : t.convert p = .ok c) :
    ∀ u ∈ c.model.taps, P u.tap :=
  forall_mem_taps_of_slots hc fun i =>
    have hs := (ht i).legSlots (p.threeWinding.legs.get i)
    ⟨hs.ratio h, hs.phase h⟩

end Conversion

end EquivalentCircuit
