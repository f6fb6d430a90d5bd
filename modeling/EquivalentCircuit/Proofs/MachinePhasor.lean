import EquivalentCircuit.Numeric.Phasor
import EquivalentCircuit.Proofs.MachineRange

/-! Complex arithmetic that stays finite. A product or a sum needs its exact results below the
overflow threshold; an inverse needs only that the square of the magnitude does not vanish. -/

namespace EquivalentCircuit
namespace Phasor

structure IsFinite {α : Type} [Scalar α] (z : Phasor α) : Prop where
  re : Scalar.isFinite z.re = true
  im : Scalar.isFinite z.im = true

/-- The square of one part at least is not rounded to zero. -/
def Visible (z : Phasor Float) : Prop :=
  underflowAt < value z.re ^ 2 ∨ underflowAt < value z.im ^ 2

structure NormFits (z : Phasor Float) : Prop where
  re : Fits (value z.re ^ 2)
  im : Fits (value z.im ^ 2)
  sum : Fits (value (z.re * z.re) + value (z.im * z.im))

theorem isFinite_normSq {z : Phasor Float} :
    Scalar.isFinite z.normSq ↔ z.IsFinite ∧ z.NormFits := by
  have h : Scalar.isFinite z.normSq ↔
      Scalar.isFinite (z.re * z.re) ∧ Scalar.isFinite (z.im * z.im) ∧
        Fits (value (z.re * z.re) + value (z.im * z.im)) := isFinite_add
  rw [h, isFinite_mul, isFinite_mul, ← sq, ← sq]
  apply Iff.intro
  · rintro ⟨⟨hr, -, hr2⟩, ⟨hi, -, hi2⟩, hs⟩
    exact ⟨⟨hr, hi⟩, hr2, hi2, hs⟩
  · rintro ⟨⟨hr, hi⟩, hr2, hi2, hs⟩
    exact ⟨⟨hr, hr, hr2⟩, ⟨hi, hi, hi2⟩, hs⟩

/-- The square of the magnitude of a finite number is a number or infinite. -/
theorem normSq_finite_or_infinite {z : Phasor Float} (hz : z.IsFinite) :
    Scalar.isFinite z.normSq ∨ IsInfinite z.normSq := by
  have hview : view z.normSq =
      repack ((view (z.re * z.re)).add .binary64 (view (z.im * z.im))) := rfl
  by_cases hr : Scalar.isFinite (z.re * z.re)
  · by_cases hi : Scalar.isFinite (z.im * z.im)
    · exact finite_or_infinite (roundsTo_value_add hr hi).isNaN
    · have hr' : (view (z.re * z.re)).isFinite = true := hr
      refine .inr ⟨.positive, ?_⟩
      rw [hview, view_mul_self hz.im hi, add_infinity _ hr', repack_infinity]
  · refine .inr ⟨.positive, ?_⟩
    have hi : (view (z.im * z.im)).isFinite = true ∨ view (z.im * z.im) = .infinity .positive :=
      or_iff_not_imp_left.2 (view_mul_self hz.im)
    rw [hview, view_mul_self hz.re hr, infinity_add _ hi, repack_infinity]

theorem value_normSq_eq_zero {z : Phasor Float} (hz : z.IsFinite) (hv : ¬ z.Visible) :
    Scalar.isFinite z.normSq ∧ value z.normSq = 0 := by
  obtain ⟨hr, hr0⟩ := value_mul_self_eq_zero hz.re fun h => hv (.inl h)
  obtain ⟨hi, hi0⟩ := value_mul_self_eq_zero hz.im fun h => hv (.inr h)
  have h := roundsTo_value_add hr hi
  rw [hr0, hi0, add_zero] at h
  have h0 : |(0 : ℚ)| ≤ underflowAt := by
    rw [abs_zero]
    exact underflowAt_pos.le
  exact ⟨h.isFinite.2 (h0.trans_lt underflowAt_lt_overflowAt), h.zero h0⟩

/-- A visible part is at most two roundings away from the square of the magnitude. -/
theorem le_value_normSq {z : Phasor Float} (hn : Scalar.isFinite z.normSq) :
    (underflowAt < value z.re ^ 2 → value z.re ^ 2 / 4 ≤ value z.normSq) ∧
      (underflowAt < value z.im ^ 2 → value z.im ^ 2 / 4 ≤ value z.normSq) := by
  obtain ⟨⟨hr, hi⟩, hf⟩ := isFinite_normSq.1 hn
  have hsr : Scalar.isFinite (z.re * z.re) := isFinite_mul.2 ⟨hr, hr, sq (value z.re) ▸ hf.re⟩
  have hsi : Scalar.isFinite (z.im * z.im) := isFinite_mul.2 ⟨hi, hi, sq (value z.im) ▸ hf.im⟩
  have hsum := roundsTo_value_add hsr hsi
  have hr0 := value_mul_self_nonneg hr
  have hi0 := value_mul_self_nonneg hi
  have hlt := lt_of_abs_lt hf.sum
  have hhalf (hu : underflowAt < value (z.re * z.re) + value (z.im * z.im)) :
      (value (z.re * z.re) + value (z.im * z.im)) / 2 ≤ value z.normSq := hsum.half_le hu hlt
  refine ⟨?_, ?_⟩
  · intro hv
    obtain ⟨h2, hu⟩ := half_le_value_mul_self hr hsr hv
    have := hhalf (by linarith)
    linarith
  · intro hv
    obtain ⟨h2, hu⟩ := half_le_value_mul_self hi hsi hv
    have := hhalf (by linarith)
    linarith

theorem value_normSq_pos {z : Phasor Float} (hn : Scalar.isFinite z.normSq) (hv : z.Visible) :
    underflowAt / 4 < value z.normSq := by
  obtain ⟨hr, hi⟩ := le_value_normSq hn
  rcases hv with h | h
  · have := hr h
    linarith
  · have := hi h
    linarith

/-- The square of the magnitude of a visible number is not zero. -/
theorem value_normSq_ne_zero {z : Phasor Float} (hn : Scalar.isFinite z.normSq) :
    value z.normSq ≠ 0 ↔ z.Visible := by
  apply Iff.intro
  · intro h
    by_contra hv
    exact h (value_normSq_eq_zero (isFinite_normSq.1 hn).1 hv).2
  · intro hv
    have := value_normSq_pos hn hv
    have := underflowAt_pos
    linarith

/-- The square of the magnitude neither overflows nor vanishes, so it can be divided by. -/
structure Scales (z : Phasor Float) : Prop where
  isFinite : z.IsFinite
  normFits : z.NormFits
  visible : z.Visible

theorem scales_iff {z : Phasor Float} :
    z.Scales ↔ Scalar.isFinite z.normSq ∧ value z.normSq ≠ 0 := by
  apply Iff.intro
  · intro h
    have hn := isFinite_normSq.2 ⟨h.isFinite, h.normFits⟩
    exact ⟨hn, (value_normSq_ne_zero hn).2 h.visible⟩
  · rintro ⟨hn, h0⟩
    obtain ⟨hz, hf⟩ := isFinite_normSq.1 hn
    exact ⟨hz, hf, (value_normSq_ne_zero hn).1 h0⟩

/-- Half the underflow threshold has a square root whose reciprocal is far from overflow. -/
theorem exists_underflow_root : ∃ c : ℚ, 0 < c ∧ underflowAt = 2 * c ^ 2 ∧ 4 / c ≤ overflowAt := by
  refine ⟨2 ^ (-538 : ℤ), two_zpow_pos _, ?_, ?_⟩
  · have h2 : ((2 : ℚ) ^ (-538 : ℤ)) ^ 2 = 2 ^ (-1076 : ℤ) := by
      rw [sq, ← two_zpow_add]
      rfl
    have h4 : (-1074 : ℤ) = 2 + -1076 := rfl
    rw [underflowAt, h2, h4, two_zpow_add]
    generalize (2 : ℚ) ^ (-1076 : ℤ) = p
    norm_num
    ring
  · have hle : (2 : ℚ) ^ (538 : ℤ) ≤ 2 ^ (971 : ℤ) := two_zpow_le (by decide)
    rw [div_eq_mul_inv, ← zpow_neg, neg_neg, overflowAt]
    exact mul_le_mul (by norm_num) hle (two_zpow_pos _).le (by norm_num)

/-- The part of a visible number over the square of its magnitude: with `c ^ 2` half the underflow
threshold, a part above `2 c` is at most `4 / c` times smaller than its square, and one below is
small itself. -/
theorem fits_quotient {x n : ℚ} (hn : underflowAt / 4 < n)
    (hx : underflowAt < x ^ 2 → x ^ 2 / 4 ≤ n) : Fits (x / n) := by
  obtain ⟨c, hc0, hu, hbound⟩ := exists_underflow_root
  have hn0 : 0 < n := by
    have := underflowAt_pos
    linarith
  rw [Fits, abs_div, abs_of_pos hn0]
  refine lt_of_lt_of_le ?_ hbound
  rw [div_lt_div_iff₀ hn0 hc0]
  rcases le_or_gt (x ^ 2) underflowAt with h | h
  · have h2 : |x| ≤ 2 * c := by
      apply abs_le_of_sq_le_sq _ (by linarith)
      nlinarith
    nlinarith
  · have h2 : c < |x| := by
      refine lt_of_pow_lt_pow_left₀ 2 (abs_nonneg x) ?_
      rw [sq_abs]
      nlinarith
    have h3 := hx h
    rw [← sq_abs] at h3
    nlinarith

/-- An inverse is finite as long as the square of the magnitude does not vanish: it never
overflows, and where the square overflows it is zero. -/
theorem isFinite_inv {z : Phasor Float} : z.inv.IsFinite ↔ z.IsFinite ∧ z.Visible := by
  apply Iff.intro
  · rintro ⟨hr, hi⟩
    obtain ⟨hr1, hn⟩ := isFinite_div.1 hr
    have hz : z.IsFinite := ⟨hr1, (isFinite_neg_iff _).1 (isFinite_div.1 hi).1⟩
    refine ⟨hz, ?_⟩
    by_contra hv
    obtain ⟨hf, h0⟩ := value_normSq_eq_zero hz hv
    rcases hn with ⟨-, hne, -⟩ | hinf
    · exact hne h0
    · exact hinf.not_finite hf
  · rintro ⟨hz, hv⟩
    have hneg : Scalar.isFinite (-z.im) := (isFinite_neg_iff _).2 hz.im
    rcases normSq_finite_or_infinite hz with hn | hn
    · have hne := (value_normSq_ne_zero hn).2 hv
      have hpos := value_normSq_pos hn hv
      obtain ⟨hr, hi⟩ := le_value_normSq hn
      refine ⟨isFinite_div.2 ⟨hz.re, .inl ⟨hn, hne, fits_quotient hpos hr⟩⟩,
        isFinite_div.2 ⟨hneg, .inl ⟨hn, hne, fits_quotient hpos ?_⟩⟩⟩
      rwa [value_neg, neg_sq]
    · exact ⟨isFinite_div.2 ⟨hz.re, .inr hn⟩, isFinite_div.2 ⟨hneg, .inr hn⟩⟩

structure NumeratorFits (z w : Phasor Float) : Prop where
  reRe : Fits (value z.re * value w.re)
  imIm : Fits (value z.im * value w.im)
  imRe : Fits (value z.im * value w.re)
  reIm : Fits (value z.re * value w.im)
  re : Fits (value (z.re * w.re) + value (z.im * w.im))
  im : Fits (value (z.im * w.re) - value (z.re * w.im))

def numerator (z w : Phasor Float) : Phasor Float :=
  ⟨z.re * w.re + z.im * w.im, z.im * w.re - z.re * w.im⟩

theorem isFinite_numerator {z w : Phasor Float} :
    (z.numerator w).IsFinite ↔ z.IsFinite ∧ w.IsFinite ∧ z.NumeratorFits w := by
  apply Iff.intro
  · rintro ⟨hr, hi⟩
    obtain ⟨hrr, hii, hre⟩ := isFinite_add.1 hr
    obtain ⟨hir, hri, him⟩ := isFinite_sub.1 hi
    obtain ⟨hzr, hwr, h1⟩ := isFinite_mul.1 hrr
    obtain ⟨hzi, hwi, h2⟩ := isFinite_mul.1 hii
    obtain ⟨-, -, h3⟩ := isFinite_mul.1 hir
    obtain ⟨-, -, h4⟩ := isFinite_mul.1 hri
    exact ⟨⟨hzr, hzi⟩, ⟨hwr, hwi⟩, h1, h2, h3, h4, hre, him⟩
  · rintro ⟨hz, hw, h⟩
    exact ⟨isFinite_add.2 ⟨isFinite_mul.2 ⟨hz.re, hw.re, h.reRe⟩,
        isFinite_mul.2 ⟨hz.im, hw.im, h.imIm⟩, h.re⟩,
      isFinite_sub.2 ⟨isFinite_mul.2 ⟨hz.im, hw.re, h.imRe⟩,
        isFinite_mul.2 ⟨hz.re, hw.im, h.reIm⟩, h.im⟩⟩

structure ScaleFits (z : Phasor Float) (n : Float) : Prop where
  re : Fits (value z.re / value n)
  im : Fits (value z.im / value n)

theorem isFinite_scaleDown {z : Phasor Float} {n : Float} :
    (z.scaleDown n).IsFinite ↔
      z.IsFinite ∧ (Scalar.isFinite n ∧ value n ≠ 0 ∧ z.ScaleFits n ∨ IsInfinite n) := by
  apply Iff.intro
  · rintro ⟨hr, hi⟩
    obtain ⟨hzr, ⟨hn, h0, hre⟩ | hn⟩ := isFinite_div.1 hr
    · obtain ⟨hzi, ⟨-, -, him⟩ | hinf⟩ := isFinite_div.1 hi
      · exact ⟨⟨hzr, hzi⟩, .inl ⟨hn, h0, hre, him⟩⟩
      · exact absurd hn hinf.not_finite
    · exact ⟨⟨hzr, (isFinite_div.1 hi).1⟩, .inr hn⟩
  · rintro ⟨hz, ⟨hn, h0, hre, him⟩ | hn⟩
    · exact ⟨isFinite_div.2 ⟨hz.re, .inl ⟨hn, h0, hre⟩⟩, isFinite_div.2 ⟨hz.im, .inl ⟨hn, h0, him⟩⟩⟩
    · exact ⟨isFinite_div.2 ⟨hz.re, .inr hn⟩, isFinite_div.2 ⟨hz.im, .inr hn⟩⟩

theorem div_eq_scaleDown (z w : Phasor Float) : z / w = (z.numerator w).scaleDown w.normSq := rfl

theorem normSq_conj (z : Phasor Float) : z.conj.normSq = z.normSq :=
  congrArg (z.re * z.re + ·) (neg_mul_neg_eq z.im z.im)

theorem isFinite_neg {z : Phasor Float} : (-z).IsFinite ↔ z.IsFinite :=
  ⟨fun h => ⟨(isFinite_neg_iff _).1 h.re, (isFinite_neg_iff _).1 h.im⟩,
    fun h => ⟨(isFinite_neg_iff _).2 h.re, (isFinite_neg_iff _).2 h.im⟩⟩

theorem isFinite_conj {z : Phasor Float} : z.conj.IsFinite ↔ z.IsFinite :=
  ⟨fun h => ⟨h.re, (isFinite_neg_iff _).1 h.im⟩, fun h => ⟨h.re, (isFinite_neg_iff _).2 h.im⟩⟩

/-- What infinity divides vanishes. -/
theorem not_visible_scaleDown {z : Phasor Float} {n : Float} (hz : z.IsFinite)
    (hn : IsInfinite n) : ¬ (z.scaleDown n).Visible := by
  have hr : value (z.scaleDown n).re = 0 := (isFinite_div_of_infinite hz.re hn).2
  have hi : value (z.scaleDown n).im = 0 := (isFinite_div_of_infinite hz.im hn).2
  rw [Visible, hr, hi]
  have := underflowAt_pos
  norm_num
  exact this.le

end Phasor
end EquivalentCircuit
