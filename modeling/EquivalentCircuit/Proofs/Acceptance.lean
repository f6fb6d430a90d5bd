import Mathlib.Tactic.SplitIfs
import EquivalentCircuit.Proofs.Checked

/-! What the checks accept, as a property of the checked value. A check that passes says exactly
that the value is sound; which fault comes first does not matter then. -/

namespace EquivalentCircuit

variable {α : Type} [Scalar α]

structure TapStep.Sound (s : TapStep α) : Prop where
  rho_finite : Scalar.isFinite s.rho = true
  rho_positive : Scalar.isPositive s.rho = true
  angle : s.angle.isFinite = true
  rdr : Scalar.isFinite s.rdr = true
  rdx : Scalar.isFinite s.rdx = true
  rdg : Scalar.isFinite s.rdg = true
  rdb : Scalar.isFinite s.rdb = true

structure TapChanger.Sound (t : TapChanger α) : Prop where
  nonempty : t.steps ≠ []
  length_le : t.steps.length ≤ maxTapSteps
  last_le : t.lastPosition ≤ Int32.maxValue.toInt
  neutral_lt : t.neutralStep < t.steps.length
  tap_lt : t.tapPosition < t.steps.length
  steps : ∀ s ∈ t.steps, s.Sound

structure WindingEnd.Sound (e : WindingEnd α) : Prop where
  ratedU_finite : e.ratedU.isFinite = true
  ratedU_positive : Scalar.isPositive e.ratedU.value = true
  r : Scalar.isFinite e.r = true
  x : Scalar.isFinite e.x = true
  g : Scalar.isFinite e.g = true
  b : Scalar.isFinite e.b = true
  clock : e.clock ≤ maxClock
  ratio : ∀ t ∈ e.ratioTapChanger, t.Sound
  phase : ∀ t ∈ e.phaseTapChanger, t.Sound

theorem TapStep.fault?_eq_none {index : Nat} {s : TapStep α} : s.fault? index = none ↔ s.Sound := by
  apply Iff.intro
  · intro h
    unfold fault? at h
    split_ifs at h with h1 h2
    simp only [Bool.or_eq_true, Bool.not_eq_true', not_or, Bool.not_eq_false] at h1
    simp only [Bool.not_eq_true', Bool.not_eq_false, Bool.and_eq_true, List.all_cons, List.all_nil,
      and_true] at h2
    exact ⟨h1.1, h1.2, h2.1, h2.2.1, h2.2.2.1, h2.2.2.2.1, h2.2.2.2.2⟩
  · intro h
    simp [fault?, h.rho_finite, h.rho_positive, h.angle, h.rdr, h.rdx, h.rdg, h.rdb]

theorem TapChanger.fault?_eq_none {t : TapChanger α} : t.fault? = none ↔ t.Sound := by
  apply Iff.intro
  · intro h
    unfold fault? at h
    split_ifs at h with h1 h2 h3 h4 h5
    refine ⟨by simpa using h1, by omega, by omega, by omega, by omega, fun s hs => ?_⟩
    obtain ⟨i, hi⟩ := List.mem_iff_getElem?.1 hs
    exact TapStep.fault?_eq_none.1 (List.findSome?_eq_none_iff.1 h (s, i)
      (List.mk_mem_zipIdx_iff_getElem?.2 hi))
  · intro h
    have h1 := h.length_le
    have h2 := h.last_le
    have h3 := h.neutral_lt
    have h4 := h.tap_lt
    rw [fault?, if_neg (by simpa using h.nonempty), if_neg (by omega), if_neg (by omega),
      if_neg (by omega), if_neg (by omega), List.findSome?_eq_none_iff]
    rintro ⟨s, i⟩ hs
    exact TapStep.fault?_eq_none.2 (h.steps s (List.fst_mem_of_mem_zipIdx hs))

theorem TapChanger.check_eq_ok {t : TapChanger α} : t.check = .ok () ↔ t.Sound := by
  rw [← fault?_eq_none, check]
  cases t.fault? with
  | none => simp
  | some f => simp

theorem TapChanger.forM_check_eq_ok {o : Option (TapChanger α)} :
    o.forM TapChanger.check = .ok () ↔ ∀ t ∈ o, t.Sound := by
  cases o with
  | none => simp [Option.forM, pure, Except.pure]
  | some t => simp [Option.forM, check_eq_ok]

omit [Scalar α] in
/-- Two checks in a row pass if each does. -/
theorem Checked.seq_eq_ok {x y : Checked α Unit} :
    (x >>= fun _ => y) = .ok () ↔ x = .ok () ∧ y = .ok () := by
  rw [bind_eq_ok]
  exact ⟨fun ⟨(), h⟩ => h, fun h => ⟨(), h⟩⟩

theorem WindingEnd.fault?_eq_none {e : WindingEnd α} :
    e.fault? = none ↔
      (e.ratedU.isFinite = true ∧ Scalar.isPositive e.ratedU.value = true) ∧
        [e.r, e.x, e.g, e.b].all Scalar.isFinite = true ∧ e.clock ≤ maxClock := by
  unfold fault?
  split_ifs with h1 h2 h3
  · refine ⟨nofun, fun h => ?_⟩
    rw [h.1.1, h.1.2] at h1
    contradiction
  · refine ⟨nofun, fun h => ?_⟩
    rw [h.2.1] at h2
    contradiction
  · exact ⟨nofun, fun h => absurd h.2.2 (UInt8.not_le.2 h3)⟩
  · simp only [Bool.or_eq_true, Bool.not_eq_true', not_or, Bool.not_eq_false] at h1 h2
    exact ⟨fun _ => ⟨h1, h2, UInt8.not_lt.1 h3⟩, fun _ => rfl⟩

theorem WindingEnd.sound_iff {e : WindingEnd α} :
    e.Sound ↔ e.fault? = none ∧ (∀ t ∈ e.ratioTapChanger, t.Sound) ∧
      ∀ t ∈ e.phaseTapChanger, t.Sound := by
  rw [fault?_eq_none]
  apply Iff.intro
  · intro h
    refine ⟨⟨⟨h.ratedU_finite, h.ratedU_positive⟩, ?_, h.clock⟩, h.ratio, h.phase⟩
    simp [h.r, h.x, h.g, h.b]
  · rintro ⟨⟨⟨hu, hp⟩, hf, hc⟩, hr, hph⟩
    simp only [List.all_cons, List.all_nil, Bool.and_eq_true, and_true] at hf
    exact ⟨hu, hp, hf.1, hf.2.1, hf.2.2.1, hf.2.2.2, hc, hr, hph⟩

theorem WindingEnd.check_eq_ok {entity : String} {e : WindingEnd α} :
    e.check entity = .ok () ↔ e.Sound := by
  rw [sound_iff]
  unfold check
  cases e.fault? with
  | some fault => exact ⟨nofun, fun h => nomatch h.1⟩
  | none =>
    have h : (e.ratioTapChanger.forM TapChanger.check >>= fun _ =>
        e.phaseTapChanger.forM TapChanger.check) = .ok () ↔ _ := Checked.seq_eq_ok
    rw [TapChanger.forM_check_eq_ok, TapChanger.forM_check_eq_ok] at h
    exact h.trans (and_iff_right rfl).symm

theorem TwoWindingEnds.check_eq_ok {t : TwoWindingEnds α} :
    t.check = .ok () ↔ t.end1.Sound ∧ t.end2.Sound := by
  rw [check, Checked.seq_eq_ok, WindingEnd.check_eq_ok, WindingEnd.check_eq_ok]

theorem ThreeWindingEnds.check_eq_ok {t : ThreeWindingEnds α} :
    t.check = .ok () ↔ ∀ i, (t.windings.get i).Sound := by
  rw [check, Checked.seq_eq_ok, Checked.seq_eq_ok, WindingEnd.check_eq_ok, WindingEnd.check_eq_ok,
    WindingEnd.check_eq_ok]
  apply Iff.intro
  · rintro ⟨h1, h2, h3⟩ i
    cases i with
    | one => exact h1
    | two => exact h2
    | three => exact h3
  · exact fun h => ⟨h .one, h .two, h .three⟩

end EquivalentCircuit
