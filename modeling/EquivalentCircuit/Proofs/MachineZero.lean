import EquivalentCircuit.Proofs.MachineSign

/-! The zeros of machine numbers. A product or quotient of a zero is a zero of one sign or the other
and a sum with one is the other number, whatever the signs. -/

namespace EquivalentCircuit

open Float.Model Float.Model.UnpackedFloat

variable {x y : Float}

theorem isZero_iff_view : Scalar.isZero x ↔ ∃ s, view x = .zero s := by
  have h : Scalar.isZero x ↔ (view x).isNaN = false ∧ view x = view 0 ∨
      (∃ s, view x = .zero s) ∧ ∃ t, view 0 = .zero t := equal_iff
  rw [h]
  constructor
  · rintro (⟨-, h⟩ | ⟨h, -⟩)
    · exact ⟨_, h.trans view_zero⟩
    · exact h
  · exact fun h => .inr ⟨h, _, view_zero⟩

theorem isZero_neg (h : Scalar.isZero x) : Scalar.isZero (-x) := by
  obtain ⟨s, hs⟩ := isZero_iff_view.1 h
  rw [isZero_iff_view, view_neg, hs]
  exact ⟨_, rfl⟩

theorem isZero_add (hx : Scalar.isZero x) (hy : Scalar.isZero y) : Scalar.isZero (x + y) := by
  obtain ⟨s, hs⟩ := isZero_iff_view.1 hx
  obtain ⟨t, ht⟩ := isZero_iff_view.1 hy
  rw [isZero_iff_view, view_add, hs, ht]
  cases s <;> cases t <;> exact ⟨_, repack_zero _⟩

theorem isZero_mul_left (hx : Scalar.isZero x) (hy : Scalar.isFinite y) :
    Scalar.isZero (x * y) := by
  obtain ⟨s, hs⟩ := isZero_iff_view.1 hx
  rw [isZero_iff_view, view_mul, hs]
  obtain ⟨t, ht⟩ | ⟨t, n, f, hn, ht⟩ := finite_cases hy
  · rw [show view y = _ from ht]
    exact ⟨_, repack_zero _⟩
  · rw [show view y = _ from ht]
    exact ⟨_, repack_zero _⟩

theorem isZero_mul_right (hx : Scalar.isFinite x) (hy : Scalar.isZero y) :
    Scalar.isZero (x * y) := by
  obtain ⟨t, ht⟩ := isZero_iff_view.1 hy
  rw [isZero_iff_view, view_mul, ht]
  obtain ⟨s, hs⟩ | ⟨s, m, e, hm, hs⟩ := finite_cases hx
  · rw [show view x = _ from hs]
    exact ⟨_, repack_zero _⟩
  · rw [show view x = _ from hs]
    exact ⟨_, repack_zero _⟩

theorem isZero_div (hx : Scalar.isZero x) (hy : Scalar.isFinite y) (h0 : ¬ Scalar.isZero y) :
    Scalar.isZero (x / y) := by
  obtain ⟨s, hs⟩ := isZero_iff_view.1 hx
  obtain ⟨t, ht⟩ | ⟨t, n, f, hn, ht⟩ := finite_cases hy
  · exact absurd (isZero_iff_view.2 ⟨t, ht⟩) h0
  · rw [isZero_iff_view, view_div, hs, show view y = _ from ht]
    exact ⟨_, repack_zero _⟩

theorem one_add_eq_one (h : Scalar.isZero x) : 1 + x = (1 : Float) := by
  obtain ⟨s, hs⟩ := isZero_iff_view.1 h
  have hsum : 1 + x = Float.ofModel (Float.Model.pack ((view 1).add .binary64 (view x))) := rfl
  rw [hsum, hs]
  rfl

/-! The hypotenuse is computed from the bits of its legs. -/

theorem ofFields_eq_zero {s t : Sign} {e : BitVec 11} {m : BitVec 52}
    (h : ofFields s e m = .zero t) : e = 0#11 ∧ m = 0#52 := by
  unfold ofFields at h
  split_ifs at h with h1 h2 h3 h4
  exact ⟨h3, h4⟩

/-- A zero has no bit set but that of its sign. -/
theorem toBits_of_isZero (h : Scalar.isZero x) : x.toBits = 0 ∨ x.toBits = 0x8000000000000000 := by
  obtain ⟨s, hs⟩ := isZero_iff_view.1 h
  obtain ⟨he, hm⟩ := ofFields_eq_zero ((unpack_eq_ofFields _).symm.trans hs)
  have hexponent := congrArg BitVec.toNat he
  have hmantissa := congrArg BitVec.toNat hm
  simp only [unpackExponent, unpackMantissa, BitVec.toNat_cast, BitVec.extractLsb_toNat,
    Nat.shiftRight_eq_div_pow] at hexponent hmantissa
  change x.toBits.toNat / _ % _ = 0 at hexponent
  change x.toBits.toNat / _ % _ = 0 at hmantissa
  have hlt := x.toBits.toNat_lt
  simp only [← UInt64.toNat_inj, UInt64.toNat_ofNat]
  norm_num at *
  omega

theorem hypotenuse_one (h : Scalar.isZero y) : hypotenuse 1 y = 1 := by
  have hread : Binary64.ofFloat y = Binary64.ofFloat 0 ∨
      Binary64.ofFloat y = Binary64.ofFloat (-0) := by
    unfold Binary64.ofFloat
    rcases toBits_of_isZero h with h | h
    · rw [h]
      exact .inl rfl
    · rw [h]
      exact .inr rfl
  unfold hypotenuse
  rcases hread with h | h
  · rw [h]
    decide +kernel
  · rw [h]
    decide +kernel

/-! The constants of the formulas. -/

theorem isZero_ofInt_zero : Scalar.isZero (Scalar.ofInt 0 : Float) := by
  decide +kernel

theorem isFinite_two : Scalar.isFinite (Scalar.ofInt 2 : Float) := by
  decide +kernel

theorem hundred_ne_zero : Scalar.isFinite (Scalar.ofInt 100 : Float) ∧
    ¬ Scalar.isZero (Scalar.ofInt 100 : Float) := by
  decide +kernel

theorem twoHundred_ne_zero : Scalar.isFinite (Scalar.ofInt 200 : Float) ∧
    ¬ Scalar.isZero (Scalar.ofInt 200 : Float) := by
  decide +kernel

theorem isFinite_degreesPerRadian : Scalar.isFinite (Scalar.degreesPerRadian : Float) := by
  decide +kernel

theorem view_radiansPerDegree :
    view Scalar.radiansPerDegree = .finite .positive 5030569068109113 (-58) (by decide) := by
  rfl

/-- An angle in radians is less than one in degrees. -/
theorem isFinite_mul_radiansPerDegree (hx : Scalar.isFinite x) :
    Scalar.isFinite (x * Scalar.radiansPerDegree) := by
  have hc := view_radiansPerDegree
  have hle : |value Scalar.radiansPerDegree| ≤ 1 := by
    rw [value, hc, abs_exactOf_finite]
    norm_num
  refine isFinite_mul.2 ⟨hx, by rw [isFinite_eq, hc]; rfl, ?_⟩
  rw [Fits, abs_mul]
  exact (mul_le_of_le_one_right (abs_nonneg _) hle).trans_lt (fits_value hx)

end EquivalentCircuit
