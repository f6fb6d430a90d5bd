import EquivalentCircuit.Proofs.Packing
import EquivalentCircuit.Proofs.Rounding

/-! What an operation of binary64 gives, said by the exact result: zero, a number near it or
infinity. -/

namespace EquivalentCircuit

open Float.Model Float.Model.UnpackedFloat

/-- `v` is the multiple of the unit at `q` that lies within half a unit of `q`. -/
def Nearest (q v : ℚ) : Prop :=
  ∃ (t : ℤ) (n : ℕ), -1074 ≤ t ∧ q < 2 ^ (53 + t) ∧ (t = -1074 ∨ 2 ^ (52 + t) ≤ q) ∧
    v = n * 2 ^ t ∧ |(n : ℚ) - q / 2 ^ t| ≤ 1 / 2

/-- The rounded result for an exact one of the given sign and magnitude. -/
inductive Rounds (s : Sign) (q : ℚ) : UnpackedFloat → Prop
  | zero (h : q ≤ underflowAt) : Rounds s q (.zero s)
  | finite {m : ℕ} {e : ℤ} {hm : 0 < m} (hl : underflowAt < q) (hu : q < overflowAt)
      (hv : Nearest q (m * 2 ^ e)) : Rounds s q (.finite s m e hm)
  | infinity (h : overflowAt ≤ q) : Rounds s q (.infinity s)

theorem two_zpow_pos (e : ℤ) : (0 : ℚ) < 2 ^ e := zpow_pos (by norm_num) e

theorem two_zpow_le {a b : ℤ} (h : a ≤ b) : (2 : ℚ) ^ a ≤ 2 ^ b :=
  zpow_le_zpow_right₀ (by norm_num) h

theorem two_zpow_add (a b : ℤ) : (2 : ℚ) ^ (a + b) = 2 ^ a * 2 ^ b := zpow_add₀ (by norm_num) a b

theorem two_zpow_add_one (e : ℤ) : (2 : ℚ) ^ (e + 1) = 2 * 2 ^ e := by
  rw [two_zpow_add, zpow_one, mul_comm]

theorem div_zpow_le_iff {q b : ℚ} {e : ℤ} : q / 2 ^ e ≤ b ↔ q ≤ b * 2 ^ e :=
  div_le_iff₀ (two_zpow_pos e)

theorem le_div_zpow_iff {q b : ℚ} {e : ℤ} : b ≤ q / 2 ^ e ↔ b * 2 ^ e ≤ q :=
  le_div_iff₀ (two_zpow_pos e)

theorem div_zpow_lt_iff {q b : ℚ} {e : ℤ} : q / 2 ^ e < b ↔ q < b * 2 ^ e :=
  div_lt_iff₀ (two_zpow_pos e)

/-- The number that a mantissa at the exponent `t` is rounded to. -/
def carry (s : Sign) (t : ℤ) (n : ℕ) : UnpackedFloat :=
  if h0 : n = 0 then .zero s
  else if n < 2 ^ 53 then .finite s n t (Nat.pos_of_ne_zero h0)
  else .finite s (2 ^ 52) (t + 1) (by decide)

theorem roundWithAccuracy_eq (s : Sign) {m : ℕ} {e : ℤ} {a : Accuracy} {em : ExtendedMantissa}
    {t : ℤ} (h : shiftToTargetExponent .binary64 m e a = (em, t)) (ht : -1074 ≤ t)
    (hr : em.roundedMantissa ≤ 2 ^ 53) :
    roundWithAccuracy .binary64 s m e a = carry s t em.roundedMantissa := by
  rw [roundWithAccuracy, h, carry]
  dsimp only
  rcases lt_or_eq_of_le hr with hlt | heq
  · rw [shiftToTargetExponent_fits hlt ht]
    split_ifs <;> rfl
  · rw [heq, shiftToTargetExponent_carry ht]
    rfl

theorem nearest_of_located {em : ExtendedMantissa} {t : ℤ} {q : ℚ}
    (h : Located em.mantissa (q / 2 ^ t) em.accuracy) (ht : -1074 ≤ t)
    (hlt : em.mantissa < 2 ^ 53) (hn : t = -1074 ∨ 2 ^ 52 ≤ em.mantissa) :
    Nearest q (em.roundedMantissa * 2 ^ t) := by
  refine ⟨t, em.roundedMantissa, ht, ?_, ?_, rfl, h.abs_round_sub_le⟩
  · have hq : q / 2 ^ t < 2 ^ (53 : ℤ) := by exact_mod_cast h.lt_of_mantissa_lt hlt
    rwa [div_zpow_lt_iff, ← two_zpow_add] at hq
  · refine hn.imp_right fun hm => ?_
    have hq : 2 ^ (52 : ℤ) ≤ q / 2 ^ t := by exact_mod_cast h.le_of_le_mantissa hm
    rwa [le_div_zpow_iff, ← two_zpow_add] at hq

/-- Whatever has 53 bits at an exponent above the greatest one overflows. -/
theorem overflowAt_le {q : ℚ} {t : ℤ} (ht : 972 ≤ t) (hq : 2 ^ 52 ≤ q / 2 ^ t) :
    overflowAt ≤ q := by
  have h971 := two_zpow_pos 971
  have hle : 2 * 2 ^ (971 : ℤ) ≤ (2 : ℚ) ^ t := two_zpow_add_one 971 ▸ two_zpow_le ht
  rw [le_div_zpow_iff] at hq
  rw [overflowAt]
  generalize (2 : ℚ) ^ (971 : ℤ) = p at *
  linarith

theorem overflowAt_le_of_ones {q : ℚ} {t : ℤ} (ht : 971 ≤ t) (hq : 2 ^ 53 - 1 / 2 ≤ q / 2 ^ t) :
    overflowAt ≤ q := by
  rw [le_div_zpow_iff] at hq
  refine le_trans ?_ hq
  exact mul_le_mul_of_nonneg_left (two_zpow_le ht) (by norm_num)

theorem lt_overflowAt {q : ℚ} {t : ℤ} (ht : t ≤ 971) (hq : q / 2 ^ t < 2 ^ 53 - 1 / 2) :
    q < overflowAt := by
  rw [div_zpow_lt_iff] at hq
  refine lt_of_lt_of_le hq ?_
  exact mul_le_mul_of_nonneg_left (two_zpow_le ht) (by norm_num)

/-- Nothing of 53 bits overflows below the greatest exponent. -/
theorem lt_overflowAt_of_lt {q : ℚ} {t : ℤ} (ht : t ≤ 970) (hq : q / 2 ^ t < 2 ^ 53) :
    q < overflowAt := by
  have hle : 2 * 2 ^ t ≤ (2 : ℚ) ^ (971 : ℤ) := two_zpow_add_one t ▸ two_zpow_le (by omega)
  rw [div_zpow_lt_iff] at hq
  rw [overflowAt]
  generalize (2 : ℚ) ^ (971 : ℤ) = p at *
  linarith [two_zpow_pos t]

/-- A canonical number is the rounded result if its exponent overflows along with the exact one. -/
theorem rounds_repack_finite (s : Sign) {m : ℕ} {e : ℤ} {q : ℚ} (hm : 0 < m) (hc : Canonical m e)
    (hl : underflowAt < q) (hu : e ≤ 971 → q < overflowAt) (hi : 972 ≤ e → overflowAt ≤ q)
    (hv : Nearest q (m * 2 ^ e)) : Rounds s q (repack (.finite s m e hm)) := by
  rcases le_or_gt e 971 with he | he
  · rw [repack_finite s hm hc he]
    exact .finite hl (hu he) hv
  · rw [repack_overflow s hm he]
    exact .infinity (hi he)

theorem rounds_carry (s : Sign) {em : ExtendedMantissa} {t : ℤ} {q : ℚ}
    (h : Located em.mantissa (q / 2 ^ t) em.accuracy) (ht : -1074 ≤ t)
    (hlt : em.mantissa < 2 ^ 53) (hn : t = -1074 ∨ 2 ^ 52 ≤ em.mantissa) :
    Rounds s q (repack (carry s t em.roundedMantissa)) := by
  have hnear := nearest_of_located h ht hlt hn
  have hge : em.mantissa ≤ em.roundedMantissa := Located.le_round _ _
  have hle : em.roundedMantissa ≤ em.mantissa + 1 := Located.round_le _ _
  have hzero : em.roundedMantissa = 0 ↔ q / 2 ^ t ≤ 1 / 2 := h.round_eq_zero
  have hfull : em.roundedMantissa < 2 ^ 53 ↔ q / 2 ^ t < 2 ^ 53 - 1 / 2 := by
    have := h.round_lt_even (n := 2 ^ 53) (by decide)
    rwa [Nat.cast_pow, Nat.cast_ofNat] at this
  have hpos (h0 : em.roundedMantissa ≠ 0) : underflowAt < q := by
    rw [Ne, hzero, div_zpow_le_iff, not_le] at h0
    refine lt_of_le_of_lt ?_ h0
    exact mul_le_mul_of_nonneg_left (two_zpow_le ht) (by norm_num)
  unfold carry
  split_ifs with h0 hfit
  · -- the mantissa is zero, so the exponent is the least one
    obtain rfl : t = -1074 := by omega
    rw [repack_zero]
    rw [hzero, div_zpow_le_iff] at h0
    exact .zero h0
  · refine rounds_repack_finite s _ ⟨hfit, ht, by omega⟩ (hpos h0)
      (fun ht' => lt_overflowAt ht' (hfull.1 hfit)) (fun ht' => overflowAt_le ht' ?_) hnear
    have hm : 2 ^ 52 ≤ em.mantissa := hn.resolve_left (by omega)
    exact_mod_cast h.le_of_le_mantissa hm
  · -- all bits were ones, so the mantissa is a power of two now
    have hr : em.roundedMantissa = 2 ^ 53 := by omega
    have hones := not_lt.1 (mt hfull.2 hfit)
    have hlt' : q / 2 ^ t < 2 ^ 53 := by exact_mod_cast h.lt_of_mantissa_lt hlt
    refine rounds_repack_finite s _ ⟨by decide, by omega, Or.inl le_rfl⟩ (hpos h0)
      (fun ht' => lt_overflowAt_of_lt (by omega) hlt')
      (fun ht' => overflowAt_le_of_ones (by omega) hones) ?_
    rw [hr] at hnear
    have hv : ((2 ^ 52 : ℕ) : ℚ) * 2 ^ (t + 1) = (2 ^ 53 : ℕ) * 2 ^ t := by
      rw [two_zpow_add_one]
      push_cast
      ring
    rwa [hv]

theorem rounds_roundWithAccuracy (s : Sign) {m : ℕ} {e : ℤ} {a : Accuracy} {q : ℚ}
    (hq : Located m (q / 2 ^ e) a) (hc : e ≤ unitExponent m e) :
    Rounds s q (repack (roundWithAccuracy .binary64 s m e a)) := by
  have hlt := mantissa_shift_lt m e
  have hlow : -1074 ≤ unitExponent m e := by
    rw [unitExponent_eq]
    omega
  have hshift := shiftToTargetExponent_eq m e a
  have hloc := hq.ofMantissaAndAccuracy.shiftRight (unitExponent m e - e).toNat
  have hman := mantissa_shiftRight (ExtendedMantissa.ofMantissaAndAccuracy m a)
    (unitExponent m e - e).toNat
  rw [mantissa_ofMantissaAndAccuracy] at hman
  have hk : e + ((unitExponent m e - e).toNat : ℤ) = unitExponent m e := by omega
  rw [div_div, ← zpow_natCast, ← two_zpow_add, hk] at hloc
  rw [hk] at hshift
  have hlt' := hman ▸ hlt
  rw [roundWithAccuracy_eq s hshift hlow ((Located.round_le _ _).trans hlt')]
  refine rounds_carry s hloc hlow hlt' ?_
  rcases eq_or_lt_of_le hlow with h | h
  · exact Or.inl h.symm
  · exact Or.inr (hman ▸ le_mantissa_shift h hc)

theorem decreaseExponent_value (m k : ℕ) (e : ℤ) :
    (m * 2 ^ e : ℚ) / 2 ^ (e - k) = (m <<< k : ℕ) := by
  have he : (2 : ℚ) ^ e = 2 ^ (e - k) * 2 ^ (k : ℤ) := by
    rw [← two_zpow_add]
    congr 1
    omega
  rw [div_eq_iff (two_zpow_pos _).ne', he, Nat.shiftLeft_eq, zpow_natCast]
  push_cast
  ring

theorem log2_shiftLeft {m : ℕ} (hm : m ≠ 0) (k : ℕ) : (m <<< k).log2 = m.log2 + k := by
  have hne : m <<< k ≠ 0 := by
    rw [Nat.shiftLeft_eq]
    exact Nat.mul_ne_zero hm (Nat.two_pow_pos k).ne'
  rw [Nat.log2_eq_iff hne, Nat.shiftLeft_eq]
  refine ⟨?_, ?_⟩
  · rw [pow_add]
    exact Nat.mul_le_mul_right _ (Nat.log2_self_le hm)
  · rw [show m.log2 + k + 1 = m.log2 + 1 + k by omega, pow_add]
    exact Nat.mul_lt_mul_of_pos_right Nat.lt_log2_self (Nat.two_pow_pos k)

theorem rounds_round (s : Sign) {m : ℕ} (e : ℤ) (hm : m ≠ 0) :
    Rounds s (m * 2 ^ e) (repack (round .binary64 s m e)) := by
  obtain ⟨k, hk⟩ : ∃ k, (e - unitExponent m e).toNat = k := ⟨_, rfl⟩
  have hround : round .binary64 s m e = roundWithAccuracy .binary64 s (m <<< k) (e - k) .exact := by
    rw [← hk]
    rfl
  rw [hround]
  refine rounds_roundWithAccuracy s (decreaseExponent_value m k e) ?_
  rw [unitExponent_eq] at hk
  rw [unitExponent_eq, log2_shiftLeft hm]
  omega

namespace Nearest

variable {q v : ℚ}

/-- Half a unit is no more than the value itself, so rounding at most halves or doubles it. -/
theorem bounds (h : Nearest q v) (hq : underflowAt < q) : q / 2 ≤ v ∧ v ≤ 2 * q := by
  obtain ⟨t, n, ht, -, hn, rfl, habs⟩ := h
  have hp := two_zpow_pos t
  obtain ⟨hlo, hhi⟩ := abs_le.1 habs
  have hunit : 1 / 2 < q / 2 ^ t := by
    rw [lt_div_iff₀ hp]
    rcases hn with rfl | hn
    · exact hq
    · rw [two_zpow_add] at hn
      norm_num at hn
      linarith
  have hn1 : (1 : ℚ) ≤ n := by
    have : (0 : ℚ) < n := by linarith
    exact_mod_cast this
  have hq' : q = q / 2 ^ t * 2 ^ t := (div_mul_cancel₀ q hp.ne').symm
  generalize q / 2 ^ t = r at *
  refine ⟨?_, ?_⟩
  · rw [hq', div_eq_mul_inv, mul_right_comm]
    exact mul_le_mul_of_nonneg_right (by linarith) hp.le
  · rw [hq', ← mul_assoc]
    exact mul_le_mul_of_nonneg_right (by linarith) hp.le

end Nearest

end EquivalentCircuit
