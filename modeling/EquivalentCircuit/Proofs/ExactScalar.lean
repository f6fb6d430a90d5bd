import Mathlib.Analysis.SpecialFunctions.Complex.Arg
import Mathlib.Analysis.SpecialFunctions.Trigonometric.Arctan
import EquivalentCircuit.Numeric.Phasor

/-! The real numbers as a `Scalar`: every formula read without rounding. Phasors over them are the
complex numbers, and each operation on phasors is the operation of that name. -/

namespace EquivalentCircuit
noncomputable section
open Classical ComplexConjugate

instance : Scalar ℝ where
  ofInt n := n
  half := 1 / 2
  isFinite _ := true
  equal x y := decide (x = y)
  atMost x y := decide (x ≤ y)
  sin := Real.sin
  cos := Real.cos
  arctan := Real.arctan
  arctan2 y x := Complex.arg ⟨x, y⟩
  hypotenuse x y := Real.sqrt (x ^ 2 + y ^ 2)
  radiansPerDegree := Real.pi / 180
  degreesPerRadian := 180 / Real.pi

namespace Scalar

@[simp] theorem isFinite_real (x : ℝ) : isFinite x = true := rfl

@[simp] theorem equal_real (x y : ℝ) : equal x y = decide (x = y) := rfl

@[simp] theorem isZero_real (x : ℝ) : isZero x = decide (x = 0) := rfl

@[simp] theorem isPositive_real (x : ℝ) : isPositive x = decide (0 < x) := by
  rw [isPositive, show atMost x 0 = decide (x ≤ 0) from rfl, ← decide_not]
  simp only [not_le]

end Scalar

namespace Phasor

def toComplex (z : Phasor ℝ) : ℂ := ⟨z.re, z.im⟩

@[simp] theorem toComplex_mk (x y : ℝ) : toComplex ⟨x, y⟩ = ⟨x, y⟩ := rfl

@[simp] theorem toComplex_eq_zero (z : Phasor ℝ) : z.toComplex = 0 ↔ z.isZero = true := by
  simp [isZero, toComplex, Complex.ext_iff]

@[simp] theorem toComplex_add (z w : Phasor ℝ) : (z + w).toComplex = z.toComplex + w.toComplex := by
  apply Complex.ext <;> rfl

@[simp] theorem toComplex_sub (z w : Phasor ℝ) : (z - w).toComplex = z.toComplex - w.toComplex := by
  apply Complex.ext <;> rfl

@[simp] theorem toComplex_neg (z : Phasor ℝ) : (-z).toComplex = -z.toComplex := by
  apply Complex.ext <;> rfl

@[simp] theorem toComplex_conj (z : Phasor ℝ) : z.conj.toComplex = conj z.toComplex := by
  apply Complex.ext <;> rfl

theorem normSq_eq (z : Phasor ℝ) : z.normSq = Complex.normSq z.toComplex := rfl

@[simp] theorem toComplex_inv (z : Phasor ℝ) : z.inv.toComplex = z.toComplex⁻¹ := by
  apply Complex.ext
  · rw [Complex.inv_re]; rfl
  · rw [Complex.inv_im]; rfl

@[simp] theorem toComplex_div (z w : Phasor ℝ) : (z / w).toComplex = z.toComplex / w.toComplex := by
  apply Complex.ext
  · rw [Complex.div_re, ← add_div]; rfl
  · rw [Complex.div_im, ← sub_div]; rfl

@[simp] theorem toComplex_scaleDown (z : Phasor ℝ) (k : ℝ) :
    (z.scaleDown k).toComplex = z.toComplex / k := by
  apply Complex.ext
  · rw [Complex.div_ofReal_re]; rfl
  · rw [Complex.div_ofReal_im]; rfl

theorem toComplex_ofPolar (r theta : ℝ) :
    (ofPolar r theta).toComplex = r * Complex.exp (theta * Complex.I) := by
  apply Complex.ext
  · rw [Complex.re_ofReal_mul, Complex.exp_ofReal_mul_I_re]; rfl
  · rw [Complex.im_ofReal_mul, Complex.exp_ofReal_mul_I_im]; rfl

theorem toComplex_ofPolar_ne_zero {r : ℝ} (hr : 0 < r) (theta : ℝ) :
    (ofPolar r theta).toComplex ≠ 0 := by
  rw [toComplex_ofPolar]
  exact mul_ne_zero (Complex.ofReal_ne_zero.2 hr.ne') (Complex.exp_ne_zero _)

end Phasor

end

end EquivalentCircuit
