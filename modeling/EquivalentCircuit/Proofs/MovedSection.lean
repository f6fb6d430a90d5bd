import EquivalentCircuit.Proofs.TwoPort

/-! The section after a ratio has moved, in closed form. Without rounding all three ways through
`PiSection.relocate` are one: the impedance grows by the square of the magnitude, the admittances
shrink by it, and the angle does not show. -/

namespace EquivalentCircuit
noncomputable section
open Classical ComplexConjugate

namespace Phasor

theorem toComplex_inj {z w : Phasor ℝ} : z.toComplex = w.toComplex ↔ z = w := by
  cases z
  cases w
  simp [Complex.ext_iff]

theorem normSq_ofPolar (r theta : ℝ) : (ofPolar r theta).normSq = r ^ 2 := by
  change r * Real.cos theta * (r * Real.cos theta) + r * Real.sin theta * (r * Real.sin theta) = _
  linear_combination r ^ 2 * Real.cos_sq_add_sin_sq theta

end Phasor

namespace PiSection

/-- The section seen through a ratio whose magnitude has the square `k`. -/
def scale (k : ℝ) (p : PiSection ℝ) : PiSection ℝ :=
  ⟨k * p.r, k * p.x, p.g1 / k, p.b1 / k, p.g2 / k, p.b2 / k⟩

@[simp] theorem scale_one (p : PiSection ℝ) : p.scale 1 = p := by
  simp [scale]

theorem relocateShunts_eq_scale (a : Phasor ℝ) {p : PiSection ℝ} (hz : p.series.isZero = true) :
    p.relocateShunts a = p.scale a.normSq := by
  obtain ⟨hr, hx⟩ : p.r = 0 ∧ p.x = 0 := by simpa [Phasor.isZero, series] using hz
  simp [relocateShunts, ofPhasors, scale, Phasor.scaleDown, shunt1, shunt2, hr, hx]

/-- The inverse of the moved series admittance. -/
theorem inv_movedSeries (a z : Phasor ℝ) :
    (-(-z.inv / a) / a.conj).inv = ⟨a.normSq * z.re, a.normSq * z.im⟩ := by
  rw [← Phasor.toComplex_inj, Phasor.toComplex_inv, toComplex_movedSeries, Phasor.toComplex_inv,
    inv_div, div_inv_eq_mul, ← normSq_cast]
  apply Complex.ext
  · exact Complex.re_ofReal_mul _ _
  · exact Complex.im_ofReal_mul _ _

theorem movedShunt_eq (a y s : Phasor ℝ) :
    (s + y).scaleDown a.normSq - -(-y / a) / a.conj = s.scaleDown a.normSq := by
  rw [← Phasor.toComplex_inj, toComplex_movedShunt, Phasor.toComplex_scaleDown, normSq_cast]

theorem relocateSeries_eq_scale (a : Phasor ℝ) (p : PiSection ℝ) :
    p.relocateSeries a = p.scale a.normSq := by
  unfold relocateSeries
  dsimp only
  rw [inv_movedSeries, movedShunt_eq, movedShunt_eq]
  rfl

/-- With or without a series branch, and for the ratio zero too. -/
theorem relocateBy_eq_scale (a : Phasor ℝ) (p : PiSection ℝ) :
    p.relocateBy a = p.scale a.normSq := by
  unfold relocateBy
  split_ifs with hz
  · exact relocateShunts_eq_scale a hz
  · exact relocateSeries_eq_scale a p

/-- Whether a ratio can be moved depends on the ratio alone. -/
theorem relocate_eq_scale (magnitude : ℝ) (angle : Degrees ℝ) (p : PiSection ℝ) :
    p.relocate magnitude angle =
      if 0 < magnitude then .ok (p.scale (magnitude ^ 2))
      else .error ⟨"structural ratio", .relocation magnitude angle⟩ := by
  unfold relocate
  by_cases hm : 0 < magnitude
  · by_cases h1 : magnitude = 1 ∧ angle.value = 0
    · simp [Quantity.isFinite, h1]
    · simp [Quantity.isFinite, hm, h1, relocateBy_eq_scale, Phasor.normSq_ofPolar]
  · simp [Quantity.isFinite, hm]

end PiSection

end

end EquivalentCircuit
