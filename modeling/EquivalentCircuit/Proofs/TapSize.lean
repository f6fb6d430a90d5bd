import EquivalentCircuit.Proofs.Acceptance
import EquivalentCircuit.Proofs.ConvertedTaps
import EquivalentCircuit.Proofs.Product

/-! How large the tap changers of models are. Those of one kind meet in one product at most, whether
they are gathered first or moved first, so a model has no more steps than two full tables have
pairs. -/

namespace EquivalentCircuit

variable {α : Type}

/-- At most `n` steps, the neutral and the current one among them. -/
structure TapChanger.Within (n : Nat) (t : TapChanger α) : Prop where
  length_le : t.steps.length ≤ n
  index_lt : ∀ w, t.indexOf w < t.steps.length

variable [Scalar α]

namespace TapChanger.Within

variable {m n : Nat} {a b t : TapChanger α}

theorem of_sound (h : t.Sound) : t.Within maxTapSteps := by
  refine ⟨h.length_le, fun w => ?_⟩
  cases w with
  | neutral => exact h.neutral_lt
  | current => exact h.tap_lt

theorem of_forall_sound {a : Option (TapChanger α)} (h : ∀ t ∈ a, t.Sound) :
    ∀ t ∈ a, t.Within maxTapSteps :=
  fun t ht => of_sound (h t ht)

omit [Scalar α] in
theorem mono (h : t.Within m) (hmn : m ≤ n) : t.Within n :=
  ⟨Nat.le_trans h.length_le hmn, h.index_lt⟩

theorem length_product (a b : TapChanger α) :
    (a.product b).steps.length = a.steps.length * b.steps.length := by
  simp [TapChanger.product, List.length_flatMap, List.map_const']

theorem product (ha : a.Within m) (hb : b.Within n) : (a.product b).Within (m * n) := by
  refine ⟨?_, fun w => ?_⟩
  · rw [length_product]
    exact Nat.mul_le_mul ha.length_le hb.length_le
  · rw [length_product, indexOf_product]
    calc a.indexOf w * b.steps.length + b.indexOf w
        < a.indexOf w * b.steps.length + b.steps.length := Nat.add_lt_add_left (hb.index_lt w) _
      _ = (a.indexOf w + 1) * b.steps.length := (Nat.succ_mul ..).symm
      _ ≤ a.steps.length * b.steps.length := Nat.mul_le_mul_right _ (ha.index_lt w)

omit [Scalar α] in
/-- The indices do not look at the steps. -/
theorem mapSteps (h : t.Within n) (f : TapStep α → TapStep α) : (t.mapSteps f).Within n := by
  have hlength : (t.mapSteps f).steps.length = t.steps.length := List.length_map _
  refine ⟨hlength ▸ h.length_le, fun w => ?_⟩
  rw [hlength]
  cases w with
  | neutral => exact h.index_lt .neutral
  | current => exact h.index_lt .current

theorem relocate (h : t.Within n) : t.relocate.Within n := h.mapSteps _

theorem negateAngles (h : t.Within n) : t.negateAngles.Within n := h.mapSteps _

end TapChanger.Within

/-- The tap changers of end1 have at most `m` steps, those of end2 at most `n`. -/
structure TapSlots.Within (m n : Nat) (s : TapSlots α) : Prop where
  pos1 : 0 < m
  pos2 : 0 < n
  ratio1 : ∀ t ∈ s.ratio1, t.Within m
  phase1 : ∀ t ∈ s.phase1, t.Within m
  ratio2 : ∀ t ∈ s.ratio2, t.Within n
  phase2 : ∀ t ∈ s.phase2, t.Within n

namespace TapSlots.Within

variable {m n : Nat} {s : TapSlots α}

theorem combine {a b : Option (TapChanger α)} (hm : 0 < m) (hn : 0 < n)
    (ha : ∀ t ∈ a, t.Within m) (hb : ∀ t ∈ b, t.Within n) :
    ∀ t ∈ TapChanger.combine a b, t.Within (m * n) :=
  TapChanger.forall_mem_combine (fun _ h => h.mono (Nat.le_mul_of_pos_right m hn))
    (fun _ h => h.mono (Nat.le_mul_of_pos_left n hm)) (fun _ _ => .product) ha hb

omit [Scalar α] in
theorem map {f : TapChanger α → TapChanger α} (hf : ∀ t : TapChanger α, t.Within n → (f t).Within n)
    {a : Option (TapChanger α)} (ha : ∀ t ∈ a, t.Within n) : ∀ t ∈ a.map f, t.Within n :=
  Option.forall_mem_map.2 fun t ht => hf t (ha t ht)

/-- Gathered tap changers have left the other end empty. -/
theorem place (h : s.Within n n) (side : Option Side) :
    ∃ k l, k * l = n * n ∧ (s.place side).Within k l := by
  have hpos : 0 < n * n := Nat.mul_pos h.pos1 h.pos1
  match side with
  | none => exact ⟨n, n, rfl, h⟩
  | some .end1 =>
    exact ⟨n * n, 1, Nat.mul_one _, hpos, Nat.one_pos, combine h.pos1 h.pos2 h.ratio1 h.ratio2,
      combine h.pos1 h.pos2 h.phase1 h.phase2, nofun, nofun⟩
  | some .end2 =>
    exact ⟨1, n * n, Nat.one_mul _, Nat.one_pos, hpos, nofun, nofun,
      combine h.pos2 h.pos1 h.ratio2 h.ratio1, combine h.pos2 h.pos1 h.phase2 h.phase1⟩

theorem negatePhase (h : s.Within m n) : s.negatePhase.Within m n :=
  { h with
    phase1 := map (fun _ => .negateAngles) h.phase1
    phase2 := map (fun _ => .negateAngles) h.phase2 }

theorem ratio (h : s.Within m n) : ∀ t ∈ s.ratio, t.Within (m * n) :=
  combine h.pos1 h.pos2 h.ratio1 (map (fun _ => .relocate) h.ratio2)

theorem phase (h : s.Within m n) : ∀ t ∈ s.phase, t.Within (m * n) :=
  combine h.pos1 h.pos2 h.phase1 (map (fun _ => .relocate) h.phase2)

end TapSlots.Within

/-- The tap changers of a leg are at one of its ends. -/
theorem WindingEnd.within_legSlots {w : WindingEnd α} (h : w.Sound) (p : LegPolicy) :
    ∃ k l, k * l = maxTapSteps ∧ (w.legSlots p).Within k l := by
  have hpos : 0 < maxTapSteps := by decide
  have hratio := TapChanger.Within.of_forall_sound h.ratio
  have hphase := TapChanger.Within.of_forall_sound h.phase
  unfold legSlots
  cases p.tapsAtNetworkSide with
  | false => exact ⟨1, _, Nat.one_mul _, Nat.one_pos, hpos, nofun, nofun, hratio, hphase⟩
  | true => exact ⟨_, 1, Nat.mul_one _, hpos, Nat.one_pos, hratio, hphase, nofun, nofun⟩

variable {p : Policy}

theorem TwoWindingEnds.within_of_mem_taps {t : TwoWindingEnds α}
    {c : Conversion α (TwoWindingModel α)} (hc : t.convert p = .ok c) :
    ∀ u ∈ c.model.taps, u.tap.Within (maxTapSteps * maxTapSteps) := by
  obtain ⟨hcheck, s, -, rfl⟩ := convert_eq_ok.1 hc
  obtain ⟨h1, h2⟩ := check_eq_ok.1 hcheck
  have hslots : t.slots.Within maxTapSteps maxTapSteps :=
    ⟨by decide, by decide, TapChanger.Within.of_forall_sound h1.ratio,
      TapChanger.Within.of_forall_sound h1.phase, TapChanger.Within.of_forall_sound h2.ratio,
      TapChanger.Within.of_forall_sound h2.phase⟩
  obtain ⟨k, l, hkl, hplace⟩ := hslots.place (p.twoWinding.taps.target? t.reactanceFree1)
  have hplaced : (t.placedSlots p.twoWinding).Within k l := by
    unfold placedSlots
    cases p.twoWinding.phaseNegate with
    | false => exact hplace
    | true => exact hplace.negatePhase
  rw [← hkl]
  exact forall_mem_placedTaps.2 ⟨hplaced.ratio, hplaced.phase⟩

theorem ThreeWindingEnds.within_of_mem_taps {t : ThreeWindingEnds α}
    {c : Conversion α (ThreeWindingModel α)} (hc : t.convert p = .ok c) :
    ∀ u ∈ c.model.taps, u.tap.Within maxTapSteps := by
  have hsound := check_eq_ok.1 (convert_eq_ok.1 hc).1
  refine forall_mem_taps_of_slots hc fun i => ?_
  obtain ⟨k, l, hkl, hs⟩ := WindingEnd.within_legSlots (hsound i) (p.threeWinding.legs.get i)
  rw [← hkl]
  exact ⟨hs.ratio, hs.phase⟩

end EquivalentCircuit
