import Mathlib.LinearAlgebra.Matrix.Notation
import EquivalentCircuit.Proofs.ExactScalar
import EquivalentCircuit.Transformer.PiSection

/-! The two-port that a π-section makes together with an ideal ratio at one end. Moving the ratio
from end2 to end1 keeps its admittance matrix, whatever the phase of the ratio. -/

namespace EquivalentCircuit
noncomputable section
open Classical ComplexConjugate

/-- An admittance matrix seen through ideal ratios `c₁` at end1 and `c₂` at end2. A ratio divides
the voltage of its end on the way in and, by its conjugate, the current on the way out. -/
def behindRatios (c₁ c₂ : ℂ) (Y : Matrix (Fin 2) (Fin 2) ℂ) : Matrix (Fin 2) (Fin 2) ℂ :=
  !![(conj c₁)⁻¹, 0; 0, (conj c₂)⁻¹] * Y * !![c₁⁻¹, 0; 0, c₂⁻¹]

namespace PiSection

def admittance (p : PiSection ℝ) : ℂ := p.series.toComplex⁻¹

def ya (p : PiSection ℝ) : ℂ := p.shunt1.toComplex

def yb (p : PiSection ℝ) : ℂ := p.shunt2.toComplex

def matrix (p : PiSection ℝ) : Matrix (Fin 2) (Fin 2) ℂ :=
  !![p.ya + p.admittance, -p.admittance; -p.admittance, p.yb + p.admittance]

theorem behindRatios_matrix (c₁ c₂ : ℂ) (p : PiSection ℝ) :
    behindRatios c₁ c₂ p.matrix =
      !![(p.ya + p.admittance) / (‖c₁‖ : ℂ) ^ 2, -p.admittance / (conj c₁ * c₂);
        -p.admittance / (c₁ * conj c₂), (p.yb + p.admittance) / (‖c₂‖ : ℂ) ^ 2] := by
  ext i j
  fin_cases i <;> fin_cases j <;>
    simp [behindRatios, matrix, ← Complex.mul_conj', div_eq_mul_inv] <;> ring

/-- `q` with the ratio `1 / a` at end1 is the two-port that `p` is with `a` at end2: first entry by
entry, then as the matrix at the terminals. -/
structure KeepsTwoPort (a : ℂ) (p q : PiSection ℝ) : Prop where
  series_ne_zero : q.series.toComplex ≠ 0
  y11 : (‖a‖ : ℂ) ^ 2 * (q.ya + q.admittance) = p.ya + p.admittance
  y12 : conj a * q.admittance = p.admittance / a
  y21 : a * q.admittance = p.admittance / conj a
  y22 : q.yb + q.admittance = (p.yb + p.admittance) / (‖a‖ : ℂ) ^ 2
  terminals : behindRatios a⁻¹ 1 q.matrix = behindRatios 1 a p.matrix

/-- Scaling all three admittances by `1 / |a|²` is enough. -/
theorem keepsTwoPort_of_scaled {a : ℂ} {p q : PiSection ℝ} (ha : a ≠ 0)
    (hz : p.series.toComplex ≠ 0) (hy : q.admittance = p.admittance / (‖a‖ : ℂ) ^ 2)
    (hya : q.ya = p.ya / (‖a‖ : ℂ) ^ 2) (hyb : q.yb = p.yb / (‖a‖ : ℂ) ^ 2) :
    KeepsTwoPort a p q := by
  have hm := Complex.mul_conj' a
  have hc : conj a ≠ 0 := (map_ne_zero _).2 ha
  have hn : (‖a‖ : ℂ) ^ 2 ≠ 0 := pow_ne_zero 2 (Complex.ofReal_ne_zero.2 (norm_ne_zero_iff.2 ha))
  have h12 : conj a * q.admittance = p.admittance / a := by
    rw [hy, ← hm]; field_simp
  have h21 : a * q.admittance = p.admittance / conj a := by
    rw [hy, ← hm]; field_simp
  have h22 : q.yb + q.admittance = (p.yb + p.admittance) / (‖a‖ : ℂ) ^ 2 := by
    rw [hy, hyb, add_div]
  have h11 : (‖a‖ : ℂ) ^ 2 * (q.ya + q.admittance) = p.ya + p.admittance := by
    rw [hy, hya, ← add_div, mul_div_cancel₀ _ hn]
  refine ⟨?_, h11, h12, h21, h22, ?_⟩
  · intro h
    have h0 : q.admittance = 0 := by rw [admittance, h, inv_zero]
    exact div_ne_zero (inv_ne_zero hz) hn (hy ▸ h0)
  · rw [behindRatios_matrix, behindRatios_matrix]
    simp only [map_inv₀, norm_inv, Complex.ofReal_inv, inv_pow, div_inv_eq_mul, map_one, mul_one,
      one_mul, norm_one, Complex.ofReal_one, one_pow, div_one, neg_mul, neg_div, ← h11, ← h12,
      ← h21, ← h22]
    simp only [mul_comm]

theorem normSq_cast (a : Phasor ℝ) : (a.normSq : ℂ) = (‖a.toComplex‖ : ℂ) ^ 2 := by
  rw [Phasor.normSq_eq, Complex.normSq_eq_norm_sq, Complex.ofReal_pow]

/-- The series admittance read off `Y12` is the old one over `|a|²`. -/
theorem toComplex_movedSeries (a y : Phasor ℝ) :
    (-(-y / a) / a.conj).toComplex = y.toComplex / (‖a.toComplex‖ : ℂ) ^ 2 := by
  simp [← Complex.mul_conj', div_div, neg_div]

/-- What is left of a diagonal entry without the series branch is the old shunt over `|a|²`. -/
theorem toComplex_movedShunt (a y s : Phasor ℝ) :
    ((s + y).scaleDown a.normSq - -(-y / a) / a.conj).toComplex =
      s.toComplex / (‖a.toComplex‖ : ℂ) ^ 2 := by
  rw [Phasor.toComplex_sub, toComplex_movedSeries, Phasor.toComplex_scaleDown, normSq_cast,
    Phasor.toComplex_add, ← sub_div, add_sub_cancel_right]

theorem relocateSeries_keepsTwoPort {a : Phasor ℝ} {p : PiSection ℝ} (ha : a.toComplex ≠ 0)
    (hz : p.series.toComplex ≠ 0) : KeepsTwoPort a.toComplex p (p.relocateSeries a) := by
  apply keepsTwoPort_of_scaled ha hz
  · change (Phasor.inv _).toComplex⁻¹ = _
    rw [Phasor.toComplex_inv, inv_inv, toComplex_movedSeries, Phasor.toComplex_inv, admittance]
  · exact toComplex_movedShunt a p.series.inv p.shunt1
  · exact toComplex_movedShunt a p.series.inv p.shunt2

theorem relocateBy_of_series_ne_zero (a : Phasor ℝ) {p : PiSection ℝ}
    (hz : p.series.toComplex ≠ 0) : p.relocateBy a = p.relocateSeries a := by
  rw [relocateBy, if_neg]
  rwa [← Phasor.toComplex_eq_zero]

/-- The ratio one needs no move. -/
theorem keepsTwoPort_one {p : PiSection ℝ} (hz : p.series.toComplex ≠ 0) : KeepsTwoPort 1 p p :=
  keepsTwoPort_of_scaled one_ne_zero hz (by simp) (by simp) (by simp)

/-- Moving a ratio from end2 to end1 keeps the two-port: for every ratio other than zero, and so
for every magnitude and angle that are accepted. -/
theorem relocate_keeps_twoPort (p : PiSection ℝ) (hz : p.series.toComplex ≠ 0) :
    (∀ a : Phasor ℝ, a.toComplex ≠ 0 → KeepsTwoPort a.toComplex p (p.relocateBy a)) ∧
      ∀ (magnitude : ℝ) (angle : Degrees ℝ), 0 < magnitude →
        ∃ q, p.relocate magnitude angle = .ok q ∧
          KeepsTwoPort (Phasor.ofPolar magnitude angle.toRadians.value).toComplex p q := by
  have general (a : Phasor ℝ) (ha : a.toComplex ≠ 0) :
      KeepsTwoPort a.toComplex p (p.relocateBy a) := by
    rw [relocateBy_of_series_ne_zero a hz]
    exact relocateSeries_keepsTwoPort ha hz
  refine ⟨general, fun magnitude angle hm => ?_⟩
  by_cases h : magnitude = 1 ∧ angle.value = 0
  · refine ⟨p, by simp [relocate, Quantity.isFinite, h], ?_⟩
    have h1 : (Phasor.ofPolar magnitude angle.toRadians.value).toComplex = 1 := by
      rw [Phasor.toComplex_ofPolar, Degrees.toRadians, h.1, h.2]
      simp
    rw [h1]
    exact keepsTwoPort_one hz
  · refine ⟨_, ?_, general _ (Phasor.toComplex_ofPolar_ne_zero hm _)⟩
    simp [relocate, Quantity.isFinite, hm, h]

/-- A section with shunts of both signs behind a ratio with a phase. -/
theorem relocate_keeps_twoPort_phase :
    (⟨3, 4⟩ : Phasor ℝ).toComplex ≠ 0 ∧ (⟨1, 2, 3, -4, -5, 6⟩ : PiSection ℝ).series.toComplex ≠ 0 ∧
      KeepsTwoPort ⟨3, 4⟩ ⟨1, 2, 3, -4, -5, 6⟩
        ((⟨1, 2, 3, -4, -5, 6⟩ : PiSection ℝ).relocateBy ⟨3, 4⟩) := by
  have ha : (⟨3, 4⟩ : Phasor ℝ).toComplex ≠ 0 := by simp [Complex.ext_iff]
  have hz : (⟨1, 2, 3, -4, -5, 6⟩ : PiSection ℝ).series.toComplex ≠ 0 := by
    simp [series, Complex.ext_iff]
  exact ⟨ha, hz, (relocate_keeps_twoPort _ hz).1 _ ha⟩

end PiSection

end

end EquivalentCircuit
