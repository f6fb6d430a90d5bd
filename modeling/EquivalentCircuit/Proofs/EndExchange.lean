import EquivalentCircuit.Proofs.KeptControls

/-! The two ends of a transformer exchanged. Gathering the tap changers at end2 of the exchanged
transformer puts the same ones in the same order as gathering them at end1 of the original, so both
meet in one and the same product. That of the original is at end1 already; the other one still
moves there, after its angles were flipped, and is the first one moved. -/

namespace EquivalentCircuit

variable {α : Type}

def Side.opposite : Side → Side
  | .end1 => .end2
  | .end2 => .end1

namespace TapSlots

def exchange (s : TapSlots α) : TapSlots α := ⟨s.ratio2, s.phase2, s.ratio1, s.phase1⟩

theorem gatherConflicts_exchange (s : TapSlots α) (side : Side) :
    s.exchange.gatherConflicts side.opposite = s.gatherConflicts side := by
  cases side <;> rfl

variable [Scalar α] (s : TapSlots α)

theorem gather_exchange (side : Side) :
    s.exchange.gather side.opposite = (s.gather side).exchange := by
  cases side <;> rfl

theorem negatePhase_exchange : s.exchange.negatePhase = s.negatePhase.exchange :=
  rfl

/-- A tap changer that is alone of its kind moves, or stays where it is. -/
theorem moved_exchange {k : TapChangerKind} (h : s.tap2 k = none) :
    s.exchange.moved k = (s.moved k).map .relocate := by
  have h1 : s.exchange.tap1 k = s.tap2 k := by cases k <;> rfl
  have h2 : s.exchange.tap2 k = s.tap1 k := by cases k <;> rfl
  rw [moved_eq, moved_eq, h1, h2, h, TapChanger.none_combine, Option.map_none,
    TapChanger.combine_none]

end TapSlots

def TwoWindingEnds.exchange (t : TwoWindingEnds α) : TwoWindingEnds α := ⟨t.id, t.end2, t.end1⟩

def Policy.withTapsAt (p : Policy) (w : TapPlacement) : Policy := { p with twoWinding.taps := w }

variable [Scalar α]

theorem controlOf_relocate (a : Option (TapChanger α)) :
    controlOf (a.map TapChanger.relocate) = controlOf a := by
  cases a <;> rfl

theorem ControlRecord.ofTapChanger_relocate (k : TapChangerKind) (w : Option WindingIndex)
    (a : Option (TapChanger α)) :
    ofTapChanger k w (a.map TapChanger.relocate) = ofTapChanger k w a := by
  cases a <;> rfl

/-- The tap changers of `d` are those of `c` seen from the other end, and they are controlled in the
same way. -/
structure Conversion.Mirrored (c d : Conversion α (TwoWindingModel α)) : Prop where
  taps : ∀ k, d.model.tap k = (c.model.tap k).map .relocate
  regulations : ∀ k, controlOf (d.model.tap k) = controlOf (c.model.tap k)
  conflicts : d.diagnostics.ofCondition .conflictingRegulation =
    c.diagnostics.ofCondition .conflictingRegulation
  controls : d.controls = c.controls

namespace TwoWindingEnds

variable {t : TwoWindingEnds α} {p : Policy} {c d : Conversion α (TwoWindingModel α)}

section Placement

variable {p q : TwoWindingPolicy} {side : Side}
  (hp : p.taps.target? t.reactanceFree1 = some side)
  (hq : q.taps.target? t.exchange.reactanceFree1 = some side.opposite)

include hp hq

/-- At opposite ends the same tap changers meet in the same order. -/
theorem placedSlots_exchange (hn : p.phaseNegate = q.phaseNegate) :
    t.exchange.placedSlots q = (t.placedSlots p).exchange := by
  have hgather : t.exchange.slots.gather side.opposite = (t.slots.gather side).exchange :=
    t.slots.gather_exchange side
  unfold placedSlots
  rw [hp, hq, hn, TapSlots.place, TapSlots.place, hgather]
  cases q.phaseNegate with
  | false => rfl
  | true => exact TapSlots.negatePhase_exchange _

theorem tapConflicts_exchange : t.exchange.tapConflicts q = t.tapConflicts p := by
  rw [tapConflicts, tapConflicts, moveConflicts_placedSlots, moveConflicts_placedSlots, hp, hq,
    TapSlots.place, TapSlots.place, TapSlots.moveConflicts_gather, TapSlots.moveConflicts_gather]
  exact congrArg (· ++ []) (t.slots.gatherConflicts_exchange side)

end Placement

theorem tap2_placedSlots {p : TwoWindingPolicy}
    (hp : p.taps.target? t.reactanceFree1 = some .end1) (k : TapChangerKind) :
    (t.placedSlots p).tap2 k = none := by
  unfold placedSlots
  rw [hp]
  cases p.phaseNegate <;> cases k <;> rfl

/-- The exchanged transformer with its tap changers gathered at end2 converts as the original does
with its own gathered at end1, seen from the other end. -/
theorem convert_exchange (hc : t.convert (p.withTapsAt .end1) = .ok c)
    (hd : t.exchange.convert (p.withTapsAt .end2) = .ok d) : c.Mirrored d := by
  obtain ⟨-, s, -, rfl⟩ := convert_eq_ok.1 hc
  obtain ⟨-, s', -, rfl⟩ := convert_eq_ok.1 hd
  have hslots : t.exchange.placedSlots (p.withTapsAt .end2).twoWinding =
      (t.placedSlots (p.withTapsAt .end1).twoWinding).exchange := placedSlots_exchange rfl rfl rfl
  have hconflicts : t.exchange.tapConflicts (p.withTapsAt .end2).twoWinding =
      t.tapConflicts (p.withTapsAt .end1).twoWinding := tapConflicts_exchange rfl rfl
  have htaps (k : TapChangerKind) : (t.exchange.modelOf (p.withTapsAt .end2) s').tap k =
      ((t.modelOf (p.withTapsAt .end1) s).tap k).map .relocate := by
    rw [tap_modelOf, tap_modelOf, hslots]
    exact TapSlots.moved_exchange _ (tap2_placedSlots rfl k)
  -- a move changes steps only, so the controls and their records follow
  refine ⟨htaps, fun k => ?_, ?_, ?_⟩
  · exact (congrArg controlOf (htaps k)).trans (controlOf_relocate _)
  · exact (conflicts_of_diagnostics ..).trans
      (hconflicts.trans (conflicts_of_diagnostics ..).symm)
  · change ControlRecord.ofTwoWinding _ = ControlRecord.ofTwoWinding _
    rw [ControlRecord.ofTwoWinding_eq_append, ControlRecord.ofTwoWinding_eq_append, htaps, htaps,
      ControlRecord.ofTapChanger_relocate, ControlRecord.ofTapChanger_relocate]

/-- Angles are flipped, and tap changers of either kind meet, both with an active control. -/
theorem convert_exchange_conflicts :
    let control (target : Float) : Regulation Float := ⟨.voltage, target, 1, none, true⟩
    let tap (name : String) (target : Float) : Option (TapChanger Float) :=
      some ⟨name, 0, [.plain 1 ⟨0⟩, .plain 1.2 ⟨3⟩], 0, 1, some (control target)⟩
    let t : TwoWindingEnds Float :=
      ⟨"T", ⟨1, 10, 0.5, -2, ⟨110⟩, "1", 0, tap "a" 110, tap "b" 120⟩,
        ⟨1, 5, 0.25, 1, ⟨20⟩, "2", 5, tap "c" 20, tap "d" 30⟩⟩
    let p : Policy := { twoWinding := ⟨.ownEnd, .split, .end2, true⟩, clocks := true }
    ∃ c d, t.convert (p.withTapsAt .end1) = .ok c ∧
      t.exchange.convert (p.withTapsAt .end2) = .ok d ∧ c.Mirrored d ∧
      controlOf (d.model.tap .ratio) = some (control 110) ∧
      controlOf (d.model.tap .phase) = some (control 120) := by
  intro control tap t p
  obtain ⟨c, hc⟩ : ∃ c, t.convert (p.withTapsAt .end1) = .ok c :=
    Checked.exists_eq_ok (by decide +kernel)
  obtain ⟨d, hd⟩ : ∃ d, t.exchange.convert (p.withTapsAt .end2) = .ok d :=
    Checked.exists_eq_ok (by decide +kernel)
  have hmirrored := convert_exchange hc hd
  obtain ⟨-, s, -, rfl⟩ := convert_eq_ok.1 hc
  exact ⟨_, d, hc, hd, hmirrored, (hmirrored.regulations .ratio).trans rfl,
    (hmirrored.regulations .phase).trans rfl⟩

end TwoWindingEnds

end EquivalentCircuit
