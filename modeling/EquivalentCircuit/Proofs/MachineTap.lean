import EquivalentCircuit.Proofs.Acceptance
import EquivalentCircuit.Proofs.MachineRange
import EquivalentCircuit.Proofs.Product

/-! When combined and moved tap changers are sound. A composed step is as long as the ratios
multiply in range and no sum overflows; a moved one as long as its ratio has a reciprocal. -/

namespace EquivalentCircuit

structure DeviationFits (a b : Float) : Prop where
  sum : Fits (value a + value b)
  product : Fits (value a * value b)
  total : Fits (value (a + b) + value (a * b))

theorem isFinite_composeDeviation {a b : Float} :
    Scalar.isFinite (composeDeviation a b) ↔
      Scalar.isFinite a ∧ Scalar.isFinite b ∧ DeviationFits a b := by
  apply Iff.intro
  · intro h
    obtain ⟨hs, hp, ht⟩ := isFinite_add.1 h
    obtain ⟨ha, hb, hs⟩ := isFinite_add.1 hs
    exact ⟨ha, hb, hs, (isFinite_mul.1 hp).2.2, ht⟩
  · rintro ⟨ha, hb, h⟩
    exact isFinite_add.2
      ⟨isFinite_add.2 ⟨ha, hb, h.sum⟩, isFinite_mul.2 ⟨ha, hb, h.product⟩, h.total⟩

theorem value_one : value 1 = 1 := by
  have h : view 1 = .finite .positive (2 ^ 52) (-52) (by decide) := rfl
  rw [value, h]
  norm_num [exactOf, signFactor]

namespace TapStep

/-- What two steps need to compose: the product of their ratios neither overflows nor vanishes, and
nothing else overflows. -/
structure ComposeFits (s t : TapStep Float) : Prop where
  rho : Fits (value s.rho * value t.rho)
  rho_pos : underflowAt < value s.rho * value t.rho
  angle : Fits (value s.angle.value + value t.angle.value)
  rdr : DeviationFits s.rdr t.rdr
  rdx : DeviationFits s.rdx t.rdx
  rdg : DeviationFits s.rdg t.rdg
  rdb : DeviationFits s.rdb t.rdb

def RelocateFits (s : TapStep Float) : Prop := Fits (1 / value s.rho)

theorem sound_compose {s t : TapStep Float} (hs : s.Sound) :
    (s.compose t).Sound ↔ t.Sound ∧ s.ComposeFits t := by
  have hs0 := (isPositive_iff hs.rho_finite).1 hs.rho_positive
  apply Iff.intro
  · intro h
    obtain ⟨-, ht, hrho⟩ := isFinite_mul.1 h.rho_finite
    obtain ⟨-, hangle, hangleFits⟩ := isFinite_add.1 h.angle
    obtain ⟨-, hr, hrFits⟩ := isFinite_composeDeviation.1 h.rdr
    obtain ⟨-, hx, hxFits⟩ := isFinite_composeDeviation.1 h.rdx
    obtain ⟨-, hg, hgFits⟩ := isFinite_composeDeviation.1 h.rdg
    obtain ⟨-, hb, hbFits⟩ := isFinite_composeDeviation.1 h.rdb
    have hpos := (isPositive_iff h.rho_finite).1 h.rho_positive
    have hlow := ((roundsTo_value_mul hs.rho_finite ht).pos_iff hrho).1 hpos
    have ht0 : 0 < value t.rho := (mul_pos_iff_of_pos_left hs0).1 (underflowAt_pos.trans hlow)
    exact ⟨⟨ht, (isPositive_iff ht).2 ht0, hangle, hr, hx, hg, hb⟩,
      ⟨hrho, hlow, hangleFits, hrFits, hxFits, hgFits, hbFits⟩⟩
  · rintro ⟨ht, h⟩
    have hfin : Scalar.isFinite (s.rho * t.rho) :=
      isFinite_mul.2 ⟨hs.rho_finite, ht.rho_finite, h.rho⟩
    have hpos : 0 < value (s.rho * t.rho) :=
      ((roundsTo_value_mul hs.rho_finite ht.rho_finite).pos_iff h.rho).2 h.rho_pos
    exact ⟨hfin, (isPositive_iff hfin).2 hpos, isFinite_add.2 ⟨hs.angle, ht.angle, h.angle⟩,
      isFinite_composeDeviation.2 ⟨hs.rdr, ht.rdr, h.rdr⟩,
      isFinite_composeDeviation.2 ⟨hs.rdx, ht.rdx, h.rdx⟩,
      isFinite_composeDeviation.2 ⟨hs.rdg, ht.rdg, h.rdg⟩,
      isFinite_composeDeviation.2 ⟨hs.rdb, ht.rdb, h.rdb⟩⟩

/-- The reciprocal of a ratio is never lost to underflow. -/
theorem underflowAt_lt_reciprocal {x : Float} (hx : Scalar.isFinite x) (h0 : 0 < value x) :
    underflowAt < 1 / value x := by
  have hlt : value x < overflowAt := lt_of_abs_lt (fits_value hx)
  have hone : underflowAt * overflowAt < 1 := by
    have h : (2 : ℚ) ^ (-1074 : ℤ) * 2 ^ (971 : ℤ) = (2 ^ 103)⁻¹ := by
      rw [← two_zpow_add]
      norm_num
    calc underflowAt * overflowAt
        = 1 / 2 * (2 ^ 53 - 1 / 2) * ((2 : ℚ) ^ (-1074 : ℤ) * 2 ^ (971 : ℤ)) := by
          rw [underflowAt, overflowAt]
          ring
      _ < 1 := by
          rw [h]
          norm_num
  rw [lt_div_iff₀ h0]
  exact (mul_lt_mul_of_pos_left hlt underflowAt_pos).trans hone

theorem roundsTo_reciprocal {x : Float} (hx : Scalar.isFinite x) (h0 : value x ≠ 0) :
    RoundsTo (1 / value x) (view (1 / x)) := by
  have h := roundsTo_value_div (x := 1) rfl hx h0
  rwa [value_one] at h

theorem sound_relocate {s : TapStep Float} : s.relocate.Sound ↔ s.Sound ∧ s.RelocateFits := by
  apply Iff.intro
  · intro h
    have hpos := (isPositive_iff h.rho_finite).1 h.rho_positive
    obtain ⟨-, ⟨hs, hne, -⟩ | hinf⟩ := isFinite_div.1 h.rho_finite
    · have hr := roundsTo_reciprocal hs hne
      have hfits : s.RelocateFits := hr.isFinite.1 h.rho_finite
      have h0 : 0 < value s.rho := one_div_pos.1 (underflowAt_pos.trans ((hr.pos_iff hfits).1 hpos))
      have hs0 := (isPositive_iff hs).2 h0
      have hangle := (isFinite_neg_iff _).1 h.angle
      exact ⟨{ h with rho_finite := hs, rho_positive := hs0, angle := hangle }, hfits⟩
    · exact absurd (isFinite_div_of_infinite (x := 1) rfl hinf).2 hpos.ne'
  · rintro ⟨h, hfits⟩
    have h0 := (isPositive_iff h.rho_finite).1 h.rho_positive
    have hr := roundsTo_reciprocal h.rho_finite h0.ne'
    have hfin : Scalar.isFinite (1 / s.rho) := hr.isFinite.2 hfits
    have hpos := (hr.pos_iff hfits).2 (underflowAt_lt_reciprocal h.rho_finite h0)
    have hangle := (isFinite_neg_iff _).2 h.angle
    exact { h with rho_finite := hfin, rho_positive := (isPositive_iff hfin).2 hpos, angle := hangle }

theorem sound_negateAngle {s : TapStep Float} : s.negateAngle.Sound ↔ s.Sound :=
  ⟨fun h => { h with angle := (isFinite_neg_iff _).1 h.angle },
    fun h => { h with angle := (isFinite_neg_iff _).2 h.angle }⟩

/-- Flipping both angles flips their sum, and neither overflows without the other. -/
theorem sound_compose_negateAngle {s t : TapStep Float} :
    (s.negateAngle.compose t.negateAngle).Sound ↔ (s.compose t).Sound := by
  have hangle : Scalar.isFinite (-s.angle.value + -t.angle.value) ↔
      Scalar.isFinite (s.angle.value + t.angle.value) := by
    rw [isFinite_add, isFinite_add, isFinite_neg_iff, isFinite_neg_iff, value_neg, value_neg,
      ← neg_add, Fits, Fits, abs_neg]
  exact ⟨fun h => { h with angle := hangle.1 h.angle },
    fun h => { h with angle := hangle.2 h.angle }⟩

end TapStep

def SoundSlot {α : Type} [Scalar α] (a : Option (TapChanger α)) : Prop :=
  ∀ t ∈ a, ∀ s ∈ t.steps, s.Sound

def CombineFits (a b : Option (TapChanger Float)) : Prop :=
  ∀ t ∈ a, ∀ u ∈ b, ∀ s ∈ t.steps, ∀ r ∈ u.steps, s.ComposeFits r

def RelocateFits (a : Option (TapChanger Float)) : Prop :=
  ∀ t ∈ a, ∀ s ∈ t.steps, s.RelocateFits

namespace SoundSlot

variable {a b : Option (TapChanger Float)}

theorem of_sound {α : Type} [Scalar α] {a : Option (TapChanger α)} (h : ∀ t ∈ a, t.Sound) :
    SoundSlot a := fun t ht => (h t ht).steps

theorem product {t u : TapChanger Float} (ht : t.Sound) :
    (∀ s ∈ (TapChanger.product t u).steps, s.Sound) ↔
      (∀ r ∈ u.steps, r.Sound) ∧ ∀ s ∈ t.steps, ∀ r ∈ u.steps, s.ComposeFits r := by
  rw [TapChanger.forall_mem_product]
  apply Iff.intro
  · intro h
    have hpair (s) (hs : s ∈ t.steps) (r) (hr : r ∈ u.steps) : r.Sound ∧ s.ComposeFits r :=
      (TapStep.sound_compose (ht.steps s hs)).1 (h s hs r hr)
    obtain ⟨s₀, hs₀⟩ := List.exists_mem_of_ne_nil _ ht.nonempty
    exact ⟨fun r hr => (hpair s₀ hs₀ r hr).1, fun s hs r hr => (hpair s hs r hr).2⟩
  · rintro ⟨hu, hf⟩ s hs r hr
    exact (TapStep.sound_compose (ht.steps s hs)).2 ⟨hu r hr, hf s hs r hr⟩

theorem combine (ha : ∀ t ∈ a, t.Sound) :
    SoundSlot (TapChanger.combine a b) ↔ SoundSlot b ∧ CombineFits a b := by
  cases a with
  | none => cases b <;> simp [SoundSlot, CombineFits, TapChanger.combine]
  | some t =>
    cases b with
    | none => simpa [SoundSlot, CombineFits, TapChanger.combine] using (ha t rfl).steps
    | some u =>
      have h := product (u := u) (ha t rfl)
      simpa [SoundSlot, CombineFits, TapChanger.combine] using h

theorem relocate :
    SoundSlot (a.map TapChanger.relocate) ↔ SoundSlot a ∧ RelocateFits a := by
  cases a with
  | none => simp [SoundSlot, RelocateFits]
  | some t => simp [SoundSlot, RelocateFits, TapChanger.relocate, TapStep.sound_relocate,
      forall_and]

theorem negateAngles : SoundSlot (a.map TapChanger.negateAngles) ↔ SoundSlot a := by
  cases a with
  | none => simp
  | some t => simp [SoundSlot, TapChanger.negateAngles, TapStep.sound_negateAngle]

/-- Flipping the angles before combining makes no difference. -/
theorem combine_negateAngles :
    SoundSlot (TapChanger.combine (a.map .negateAngles) (b.map .negateAngles)) ↔
      SoundSlot (TapChanger.combine a b) := by
  cases a with
  | none =>
    cases b with
    | none => rfl
    | some u => exact negateAngles (a := some u)
  | some t =>
    cases b with
    | none => exact negateAngles (a := some t)
    | some u =>
      have h := TapChanger.forall_mem_product (a := t.negateAngles) (b := u.negateAngles)
        (P := TapStep.Sound)
      have h' := TapChanger.forall_mem_product (a := t) (b := u) (P := TapStep.Sound)
      simp only [SoundSlot, TapChanger.combine, Option.map_some, Option.mem_some_iff, forall_eq']
      rw [h, h']
      simp [TapChanger.negateAngles, TapStep.sound_compose_negateAngle]

end SoundSlot

end EquivalentCircuit
