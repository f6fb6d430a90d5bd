import EquivalentCircuit.Proofs.MovedSection
import EquivalentCircuit.Proofs.Checked

/-! Ratios moved one after the other. What a move does depends on the square of the magnitude, so
two moves are the move of the product and a move is undone by that of the reciprocal; the angles of
the ratios never matter. -/

namespace EquivalentCircuit
noncomputable section
open Classical

namespace PiSection

theorem scale_scale (k l : ℝ) (p : PiSection ℝ) : (p.scale k).scale l = p.scale (k * l) := by
  simp only [scale, div_div, mul_assoc, mul_left_comm l k]

theorem relocate_of_pos {magnitude : ℝ} (h : 0 < magnitude) (angle : Degrees ℝ) (p : PiSection ℝ) :
    p.relocate magnitude angle = .ok (p.scale (magnitude ^ 2)) := by
  rw [relocate_eq_scale, if_pos h]

theorem relocate_relocate {m n : ℝ} (hm : 0 < m) (hn : 0 < n) (α β γ : Degrees ℝ)
    (p : PiSection ℝ) :
    (p.relocate m α >>= fun q => q.relocate n β) = p.relocate (m * n) γ := by
  rw [relocate_of_pos hm, Checked.ok_bind, relocate_of_pos hn, relocate_of_pos (mul_pos hm hn),
    scale_scale, mul_pow]

theorem relocate_relocate_reciprocal {m : ℝ} (hm : 0 < m) (α β : Degrees ℝ) (p : PiSection ℝ) :
    (p.relocate m α >>= fun q => q.relocate (1 / m) β) = .ok p := by
  rw [relocate_relocate hm (one_div_pos.2 hm) α β ⟨0⟩, mul_one_div_cancel hm.ne',
    relocate_of_pos one_pos, one_pow, scale_one]

/-- The formulas for a section with a series branch, at the ratio one. -/
theorem relocateSeries_one (p : PiSection ℝ) :
    p.relocateSeries (.ofPolar 1 (Degrees.toRadians ⟨0⟩).value) = p := by
  rw [relocateSeries_eq_scale, Phasor.normSq_ofPolar, one_pow, scale_one]

/-- One closed form for every magnitude above zero, every angle and every section; with a series
branch the admittance formulas give it, without one the formulas for shunts alone. Moves multiply
as their magnitudes do. -/
theorem relocate_closed_form (p : PiSection ℝ) {m n : ℝ} (hm : 0 < m) (hn : 0 < n)
    (α β γ : Degrees ℝ) :
    p.relocate m α =
        .ok ⟨m ^ 2 * p.r, m ^ 2 * p.x, p.g1 / m ^ 2, p.b1 / m ^ 2, p.g2 / m ^ 2, p.b2 / m ^ 2⟩ ∧
      (p.series.toComplex ≠ 0 →
        .ok (p.relocateSeries (.ofPolar m α.toRadians.value)) = p.relocate m β ∧
          p.relocateSeries (.ofPolar 1 (Degrees.toRadians ⟨0⟩).value) = p) ∧
      (p.series.toComplex = 0 →
        .ok (p.relocateShunts (.ofPolar m α.toRadians.value)) = p.relocate m β) ∧
      (p.relocate m α >>= fun q => q.relocate n β) = p.relocate (m * n) γ ∧
      (p.relocate m α >>= fun q => q.relocate (1 / m) β) = .ok p := by
  refine ⟨relocate_of_pos hm α p, fun _ => ⟨?_, relocateSeries_one p⟩, fun hz => ?_,
    relocate_relocate hm hn α β γ p, relocate_relocate_reciprocal hm α β p⟩
  · rw [relocate_of_pos hm, relocateSeries_eq_scale, Phasor.normSq_ofPolar]
  · rw [relocate_of_pos hm, relocateShunts_eq_scale _ ((Phasor.toComplex_eq_zero _).1 hz),
      Phasor.normSq_ofPolar]

/-- Halving and then tripling a ratio, for a section without a series branch and for one with. -/
theorem relocate_closed_form_three_halves :
    let bare : PiSection ℝ := ⟨0, 0, 1, -2, 3, 4⟩
    let full : PiSection ℝ := ⟨1, 2, 3, -4, -5, 6⟩
    bare.series.toComplex = 0 ∧ full.series.toComplex ≠ 0 ∧
      (bare.relocate (1 / 2) ⟨30⟩ >>= fun q => q.relocate 3 ⟨-150⟩) =
        bare.relocate (1 / 2 * 3) ⟨0⟩ ∧
      .ok (bare.relocateShunts (.ofPolar (1 / 2) (Degrees.toRadians ⟨30⟩).value)) =
        bare.relocate (1 / 2) ⟨0⟩ ∧
      full.relocate 3 ⟨30⟩ = .ok ⟨9, 18, 1 / 3, -4 / 9, -5 / 9, 2 / 3⟩ ∧
      full.relocateSeries (.ofPolar 1 (Degrees.toRadians ⟨0⟩).value) = full := by
  intro bare full
  have hbare : bare.series.toComplex = 0 := by simp [bare, series, Complex.ext_iff]
  have hfull : full.series.toComplex ≠ 0 := by simp [full, series, Complex.ext_iff]
  have half : (0 : ℝ) < 1 / 2 := by norm_num
  have three : (0 : ℝ) < 3 := by norm_num
  obtain ⟨-, -, hshunts, hbareTwice, -⟩ := relocate_closed_form bare half three ⟨30⟩ ⟨-150⟩ ⟨0⟩
  obtain ⟨hfullOnce, hseries, -⟩ := relocate_closed_form full three half ⟨30⟩ ⟨0⟩ ⟨0⟩
  refine ⟨hbare, hfull, hbareTwice, ?_, ?_, (hseries hfull).2⟩
  · rw [hshunts hbare, relocate_of_pos half, relocate_of_pos half]
  · rw [hfullOnce]
    norm_num [full]

end PiSection

end

end EquivalentCircuit
