import EquivalentCircuit.Proofs.Acceptance
import EquivalentCircuit.Proofs.Product

/-! Tap changers frozen at a position: the table is replaced by the one step there. Every operation
on tap changers takes frozen ones to frozen ones, and what it reports does not look at the table. -/

namespace EquivalentCircuit

variable {α : Type}

namespace TapChanger

/-- `u` is `t` frozen at a position. The step may stand at any tap position. -/
structure Frozen (w : Position) (t u : TapChanger α) : Prop where
  id : u.id = t.id
  step : ∃ s, t.at? w = some s ∧ u.steps = [s]
  neutralStep : u.neutralStep = 0
  tapPosition : u.tapPosition = 0
  regulation : u.regulation = t.regulation

def freeze (w : Position) (t : TapChanger α) : TapChanger α :=
  { t with steps := (t.at? w).toList, neutralStep := 0, tapPosition := 0 }

theorem Frozen.isRegulating {w : Position} {t u : TapChanger α} (h : Frozen w t u) :
    u.isRegulating = t.isRegulating := by
  rw [TapChanger.isRegulating, TapChanger.isRegulating, h.regulation]

theorem Frozen.conflictMessage {w : Position} {a a' b b' : TapChanger α} (ha : Frozen w a a')
    (hb : Frozen w b b') : conflictMessage a' b' = conflictMessage a b := by
  unfold TapChanger.conflictMessage
  rw [ha.id, hb.id]

variable [Scalar α]

theorem at?_of_sound (w : Position) {t : TapChanger α} (h : t.Sound) :
    ∃ s ∈ t.steps, t.at? w = some s := by
  have hi : t.indexOf w < t.steps.length := by
    cases w with
    | neutral => exact h.neutral_lt
    | current => exact h.tap_lt
  exact ⟨t.steps[t.indexOf w], List.getElem_mem hi, by rw [at?_eq, List.getElem?_eq_getElem hi]⟩

theorem freeze_frozen (w : Position) {t : TapChanger α} (h : t.Sound) : Frozen w t (t.freeze w) := by
  obtain ⟨s, -, hs⟩ := at?_of_sound w h
  exact ⟨rfl, ⟨s, hs, by rw [freeze, hs]; rfl⟩, rfl, rfl, rfl⟩

/-- A table of one step that stands there. -/
theorem sound_of_singleton {u : TapChanger α} {s : TapStep α} (hu : u.steps = [s])
    (hneutral : u.neutralStep = 0) (htap : u.tapPosition = 0) (hs : s.Sound) : u.Sound := by
  have hlen : u.steps.length = 1 := by rw [hu, List.length_singleton]
  refine ⟨by simp [hu], ?_, ?_, ?_, ?_, ?_⟩
  · rw [hlen, maxTapSteps]
    omega
  · have hlast : u.lastPosition = u.lowTapPosition.toInt := by
      rw [lastPosition, hlen]
      omega
    rw [hlast]
    exact Int32.toInt_le _
  · rw [hlen, hneutral]
    omega
  · rw [hlen, htap]
    omega
  · rw [hu, List.forall_mem_singleton]
    exact hs

theorem Frozen.sound {w : Position} {t u : TapChanger α} (h : Frozen w t u) (ht : t.Sound) :
    u.Sound := by
  obtain ⟨s, hs, hu⟩ := h.step
  obtain ⟨s', hmem, hs'⟩ := at?_of_sound w ht
  obtain rfl : s = s' := Option.some.inj (hs.symm.trans hs')
  exact sound_of_singleton hu h.neutralStep h.tapPosition (ht.steps s hmem)

omit [Scalar α] in
theorem Frozen.mapSteps (f : TapStep α → TapStep α) {w : Position} {t u : TapChanger α}
    (h : Frozen w t u) : Frozen w (t.mapSteps f) (u.mapSteps f) := by
  obtain ⟨s, hs, hu⟩ := h.step
  exact ⟨h.id, ⟨_, at?_mapSteps f hs, by rw [TapChanger.mapSteps, hu]; rfl⟩, h.neutralStep,
    h.tapPosition, h.regulation⟩

theorem Frozen.product {w : Position} {a a' b b' : TapChanger α} (ha : Frozen w a a')
    (hb : Frozen w b b') : Frozen w (product a b) (product a' b') := by
  obtain ⟨s, hs, ha'⟩ := ha.step
  obtain ⟨t, ht, hb'⟩ := hb.step
  refine ⟨?_, ⟨_, at?_product hs ht, ?_⟩, ?_, ?_, ?_⟩
  · simp only [TapChanger.product, ha.id, hb.id]
  · simp only [TapChanger.product, ha', hb', List.flatMap_singleton, List.map_singleton]
  · simp only [TapChanger.product, ha.neutralStep, hb.neutralStep, Nat.zero_mul]
  · simp only [TapChanger.product, ha.tapPosition, hb.tapPosition, Nat.zero_mul]
  · simp only [TapChanger.product, keptRegulation, ha.isRegulating, hb.isRegulating,
      ha.regulation, hb.regulation]

end TapChanger

/-- Both slots are empty or the second holds what the first holds, frozen. -/
abbrev FrozenSlot (w : Position) : Option (TapChanger α) → Option (TapChanger α) → Prop :=
  Option.Rel (TapChanger.Frozen w)

namespace FrozenSlot

variable {w : Position} {a a' b b' : Option (TapChanger α)}

theorem map {f : TapChanger α → TapChanger α}
    (hf : ∀ t u, TapChanger.Frozen w t u → TapChanger.Frozen w (f t) (f u))
    (h : FrozenSlot w a a') : FrozenSlot w (a.map f) (a'.map f) := by
  cases h with
  | none => exact .none
  | some h => exact .some (hf _ _ h)

theorem controls (kind : TapChangerKind) (winding : Option WindingIndex) (h : FrozenSlot w a a') :
    ControlRecord.ofTapChanger kind winding a' = ControlRecord.ofTapChanger kind winding a := by
  cases h with
  | none => rfl
  | some h => simp only [ControlRecord.ofTapChanger, h.regulation, h.id]

variable [Scalar α]

theorem relocate (h : FrozenSlot w a a') :
    FrozenSlot w (a.map TapChanger.relocate) (a'.map TapChanger.relocate) :=
  h.map fun _ _ => .mapSteps TapStep.relocate

theorem negateAngles (h : FrozenSlot w a a') :
    FrozenSlot w (a.map TapChanger.negateAngles) (a'.map TapChanger.negateAngles) :=
  h.map fun _ _ => .mapSteps TapStep.negateAngle

theorem combine (ha : FrozenSlot w a a') (hb : FrozenSlot w b b') :
    FrozenSlot w (TapChanger.combine a b) (TapChanger.combine a' b') := by
  cases ha with
  | none => cases hb with
    | none => exact .none
    | some hb => exact .some hb
  | some ha => cases hb with
    | none => exact .some ha
    | some hb => exact .some (ha.product hb)

omit [Scalar α] in
theorem conflicts (ha : FrozenSlot w a a') (hb : FrozenSlot w b b') :
    TapChanger.conflicts a' b' = TapChanger.conflicts a b := by
  cases ha with
  | none => cases hb <;> rfl
  | some ha => cases hb with
    | none => rfl
    | some hb =>
      simp only [TapChanger.conflicts]
      rw [ha.isRegulating, hb.isRegulating, ha.conflictMessage hb, ha.id]

theorem sound (h : FrozenSlot w a a') (ha : ∀ t ∈ a, t.Sound) : ∀ t ∈ a', t.Sound := by
  cases h with
  | none => simp
  | some h => simpa using h.sound (ha _ rfl)

theorem freeze (w : Position) (ha : ∀ t ∈ a, t.Sound) :
    FrozenSlot w a (a.map (TapChanger.freeze w)) := by
  cases a with
  | none => exact .none
  | some t => exact .some (TapChanger.freeze_frozen w (ha t rfl))

end FrozenSlot

end EquivalentCircuit
