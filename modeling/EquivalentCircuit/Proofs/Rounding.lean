import Mathlib

/-! Rounding to binary64 as a fact about rational numbers. A rounded result is zero, infinite or a
number within half a unit of the exact value, and which of the three it is depends on the exact
value alone. -/

namespace EquivalentCircuit

open Float.Model Float.Model.UnpackedFloat

/-- Results from here on round to infinity. -/
def overflowAt : ℚ := (2 ^ 53 - 1 / 2) * 2 ^ (971 : ℤ)

/-- Results up to here round to zero. -/
def underflowAt : ℚ := 1 / 2 * 2 ^ (-1074 : ℤ)

/-- Where an exact value lies above the mantissa that was cut off from it. -/
def Located (m : ℕ) (q : ℚ) : Accuracy → Prop
  | .exact => q = m
  | .inexact .lt => m < q ∧ q < m + 1 / 2
  | .inexact .eq => q = m + 1 / 2
  | .inexact .gt => m + 1 / 2 < q ∧ q < m + 1

namespace Located

variable {m : ℕ} {q : ℚ} {a : Accuracy}

theorem le (h : Located m q a) : (m : ℚ) ≤ q := by
  rcases a with _ | (_ | _ | _) <;> simp only [Located] at h <;> linarith

theorem lt (h : Located m q a) : q < m + 1 := by
  rcases a with _ | (_ | _ | _) <;> simp only [Located] at h <;> linarith

theorem lt_of_mantissa_lt {n : ℕ} (h : Located m q a) (hm : m < n) : q < n := by
  have : (m : ℚ) + 1 ≤ n := by exact_mod_cast hm
  exact lt_of_lt_of_le h.lt this

theorem le_of_le_mantissa {n : ℕ} (h : Located m q a) (hm : n ≤ m) : (n : ℚ) ≤ q := by
  have : (n : ℚ) ≤ m := by exact_mod_cast hm
  exact this.trans h.le

theorem le_round (a : Accuracy) (m : ℕ) : m ≤ a.roundToNearestEven m := by
  rcases a with _ | (_ | _ | _) <;> simp [Accuracy.roundToNearestEven]

theorem round_le (a : Accuracy) (m : ℕ) : a.roundToNearestEven m ≤ m + 1 := by
  rcases a with _ | (_ | _ | _) <;> simp [Accuracy.roundToNearestEven]
  omega

theorem abs_round_sub_le (h : Located m q a) : |(a.roundToNearestEven m : ℚ) - q| ≤ 1 / 2 := by
  rw [abs_le]
  rcases a with _ | (_ | _ | _) <;> simp only [Located, Accuracy.roundToNearestEven] at h ⊢
  · constructor <;> linarith
  · constructor <;> linarith
  · rcases Nat.mod_two_eq_zero_or_one m with hm | hm <;> rw [hm] <;> push_cast <;>
      constructor <;> linarith
  · push_cast
    constructor <;> linarith

theorem round_eq_zero (h : Located m q a) : a.roundToNearestEven m = 0 ↔ q ≤ 1 / 2 := by
  have hm0 : (0 : ℚ) ≤ m := m.cast_nonneg
  apply Iff.intro
  · intro h0
    have := (abs_le.1 h.abs_round_sub_le).1
    rw [h0] at this
    push_cast at this
    linarith
  · intro hq
    have hm : m = 0 := by
      by_contra hne
      have : (1 : ℚ) ≤ m := by exact_mod_cast Nat.one_le_iff_ne_zero.2 hne
      linarith [h.le]
    subst hm
    rcases a with _ | (_ | _ | _) <;> simp only [Located, Accuracy.roundToNearestEven] at h ⊢
    push_cast at h
    linarith

/-- Rounding reaches an even bound from half a unit below it on: a tie goes to the even side. -/
theorem round_lt_even {n : ℕ} (hn : n % 2 = 0) (h : Located m q a) :
    a.roundToNearestEven m < n ↔ q < n - 1 / 2 := by
  apply Iff.intro
  · intro hr
    have hle := (abs_le.1 h.abs_round_sub_le).1
    have hr' : (a.roundToNearestEven m : ℚ) + 1 ≤ n := by exact_mod_cast hr
    rcases lt_or_eq_of_le (show q ≤ n - 1 / 2 by linarith) with hlt | heq
    · exact hlt
    -- on the tie the mantissa below is odd, so it was rounded up
    have hm1 : (m : ℚ) < n := by linarith [h.le]
    have hm2 : (n : ℚ) < m + 2 := by linarith [h.lt]
    have hmn : n = m + 1 := by
      have h1 : m < n := by exact_mod_cast hm1
      have h2 : n < m + 2 := by exact_mod_cast hm2
      omega
    subst hmn
    push_cast at heq
    rcases a with _ | (_ | _ | _) <;> simp only [Located, Accuracy.roundToNearestEven] at h hr
    · linarith
    · linarith
    · omega
    · linarith
  · intro hq
    have hm : m < n := by
      have : (m : ℚ) < n := by linarith [h.le]
      exact_mod_cast this
    have hle := round_le a m
    by_contra hge
    have hmn : n = m + 1 := by omega
    subst hmn
    push_cast at hq
    rcases a with _ | (_ | _ | _) <;> simp only [Located, Accuracy.roundToNearestEven] at h hge
    · omega
    · omega
    · linarith
    · linarith

theorem ofMantissaAndAccuracy (h : Located m q a) :
    Located (ExtendedMantissa.ofMantissaAndAccuracy m a).mantissa q
      (ExtendedMantissa.ofMantissaAndAccuracy m a).accuracy := by
  rcases a with _ | (_ | _ | _) <;> exact h

theorem shiftRightOne {em : ExtendedMantissa} (h : Located em.mantissa q em.accuracy) :
    Located em.shiftRightOne.mantissa (q / 2) em.shiftRightOne.accuracy := by
  obtain ⟨m, round, sticky⟩ := em
  have hm : (m : ℚ) = 2 * (m / 2 : ℕ) + (m % 2 : ℕ) := by exact_mod_cast (Nat.div_add_mod m 2).symm
  rcases Nat.mod_two_eq_zero_or_one m with h2 | h2 <;> cases round <;> cases sticky <;>
    simp [ExtendedMantissa.shiftRightOne, ExtendedMantissa.accuracy, Located, h2] at h hm ⊢ <;>
    (try constructor) <;> linarith

theorem shiftRight {em : ExtendedMantissa} (h : Located em.mantissa q em.accuracy) (n : ℕ) :
    Located (em >>> n).mantissa (q / 2 ^ n) (em >>> n).accuracy := by
  induction n with
  | zero =>
    rw [pow_zero, div_one]
    exact h
  | succ n ih =>
    have hs : em >>> (n + 1) = (em >>> n).shiftRightOne := rfl
    rw [hs, pow_succ, ← div_div]
    exact ih.shiftRightOne

end Located

def unitExponent (m : ℕ) (e : ℤ) : ℤ :=
  Format.binary64.targetExponent (totalExponent m e)

theorem unitExponent_eq (m : ℕ) (e : ℤ) : unitExponent m e = max (m.log2 + e - 52) (-1074) := by
  simp only [unitExponent, Format.targetExponent, totalExponent, Format.mantissaBits,
    Format.minExponent]
  norm_num
  omega

theorem shiftToTargetExponent_eq (m : ℕ) (e : ℤ) (a : Accuracy) :
    shiftToTargetExponent Format.binary64 m e a =
      (ExtendedMantissa.ofMantissaAndAccuracy m a >>> (unitExponent m e - e).toNat,
        e + (unitExponent m e - e).toNat) :=
  rfl

theorem mantissa_ofMantissaAndAccuracy (m : ℕ) (a : Accuracy) :
    (ExtendedMantissa.ofMantissaAndAccuracy m a).mantissa = m := by
  rcases a with _ | (_ | _ | _) <;> rfl

theorem mantissa_shiftRight (em : ExtendedMantissa) (n : ℕ) :
    (em >>> n).mantissa = em.mantissa / 2 ^ n := by
  induction n with
  | zero => exact (Nat.div_one _).symm
  | succ n ih =>
    have hs : (em >>> (n + 1)).mantissa = (em >>> n).mantissa / 2 := rfl
    rw [hs, ih, pow_succ, Nat.div_div_eq_div_mul]

/-- A mantissa that fits stays as it is. -/
theorem shiftToTargetExponent_fits {m : ℕ} {e : ℤ} (hm : m < 2 ^ 53) (he : -1074 ≤ e) :
    shiftToTargetExponent Format.binary64 m e .exact = (⟨m, false, false⟩, e) := by
  have hlog : m.log2 ≤ 52 := by
    rcases Nat.eq_zero_or_pos m with rfl | h0
    · simp
    · have := (Nat.log2_lt h0.ne').2 hm
      omega
  have hk : (unitExponent m e - e).toNat = 0 := by
    rw [unitExponent_eq]
    omega
  rw [shiftToTargetExponent_eq, hk]
  exact Prod.ext rfl (by simp)

/-- The one mantissa that rounding can make too wide. -/
theorem shiftToTargetExponent_carry {e : ℤ} (he : -1074 ≤ e) :
    shiftToTargetExponent Format.binary64 (2 ^ 53) e .exact = (⟨2 ^ 52, false, false⟩, e + 1) := by
  have hk : (unitExponent (2 ^ 53) e - e).toNat = 1 := by
    rw [unitExponent_eq, Nat.log2_two_pow]
    omega
  rw [shiftToTargetExponent_eq, hk]
  rfl

/-- The mantissa left after the first shift has at most 53 bits, and exactly so many unless the
exponent is the least one. -/
theorem mantissa_shift_lt (m : ℕ) (e : ℤ) : m / 2 ^ (unitExponent m e - e).toNat < 2 ^ 53 := by
  rw [Nat.div_lt_iff_lt_mul (Nat.two_pow_pos _), ← pow_add]
  refine lt_of_lt_of_le Nat.lt_log2_self (Nat.pow_le_pow_right (by decide) ?_)
  rw [unitExponent_eq]
  omega

theorem le_mantissa_shift {m : ℕ} {e : ℤ} (h : -1074 < unitExponent m e)
    (hc : e ≤ unitExponent m e) : 2 ^ 52 ≤ m / 2 ^ (unitExponent m e - e).toNat := by
  rw [unitExponent_eq] at h hc
  have hm : m ≠ 0 := by
    rintro rfl
    rw [Nat.log2_zero] at h hc
    omega
  rw [Nat.le_div_iff_mul_le (Nat.two_pow_pos _), ← pow_add]
  refine le_trans (Nat.pow_le_pow_right (by decide) ?_) (Nat.log2_self_le hm)
  rw [unitExponent_eq]
  omega

end EquivalentCircuit
