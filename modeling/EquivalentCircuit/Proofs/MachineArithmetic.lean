import EquivalentCircuit.Proofs.Binary64
import EquivalentCircuit.Numeric.MachineScalar

/-! The operations of binary64 on the exact values of their operands. Each result is the rounded
exact one, so it is finite as long as the exact one is below the overflow threshold. -/

namespace EquivalentCircuit

open Float.Model Float.Model.UnpackedFloat

def signFactor : Sign → ℚ
  | .positive => 1
  | .negative => -1

/-- The exact value; infinity and what is no number have none, and count as zero. -/
def exactOf : UnpackedFloat → ℚ
  | .finite s m e _ => signFactor s * (m * 2 ^ e)
  | _ => 0

/-- `u` is `q` rounded. -/
structure RoundsTo (q : ℚ) (u : UnpackedFloat) : Prop where
  isNaN : u.isNaN = false
  isFinite : u.isFinite = true ↔ |q| < overflowAt
  zero : |q| ≤ underflowAt → exactOf u = 0
  near : underflowAt < |q| → |q| < overflowAt → Nearest |q| |exactOf u|
  sign : 0 ≤ q * exactOf u

theorem abs_signFactor (s : Sign) : |signFactor s| = 1 := by
  cases s <;> simp [signFactor]

theorem signFactor_mul_self (s : Sign) : signFactor s * signFactor s = 1 := by
  cases s <;> norm_num [signFactor]

theorem signFactor_mul (s t : Sign) : signFactor (s * t) = signFactor s * signFactor t := by
  cases s <;> cases t <;> norm_num [signFactor]

theorem signFactor_div (s t : Sign) : signFactor (s / t) = signFactor s / signFactor t := by
  cases s <;> cases t <;> norm_num [signFactor] <;> rfl

theorem signFactor_neg (s : Sign) : signFactor (-s) = -signFactor s := by
  cases s <;> rfl

theorem signFactor_apply (s : Sign) (n : ℕ) : (s.apply n : ℚ) = signFactor s * n := by
  cases s <;> simp [Sign.apply, signFactor]

theorem underflowAt_pos : 0 < underflowAt := mul_pos (by norm_num) (two_zpow_pos _)

theorem underflowAt_lt_overflowAt : underflowAt < overflowAt := by
  have h : (2 : ℚ) ^ (-1074 : ℤ) ≤ 2 ^ (971 : ℤ) := two_zpow_le (by decide)
  have hp := two_zpow_pos (-1074)
  rw [underflowAt, overflowAt]
  generalize (2 : ℚ) ^ (-1074 : ℤ) = p at *
  generalize (2 : ℚ) ^ (971 : ℤ) = r at *
  linarith

namespace RoundsTo

variable {q : ℚ} {u : UnpackedFloat}

theorem nonneg (h : RoundsTo q u) (hq : 0 ≤ q) : 0 ≤ exactOf u := by
  rcases le_or_gt q underflowAt with hl | hl
  · rw [h.zero (by rwa [abs_of_nonneg hq])]
  · exact (mul_nonneg_iff_of_pos_left (underflowAt_pos.trans hl)).1 h.sign

theorem half_le (h : RoundsTo q u) (hl : underflowAt < q) (hu : q < overflowAt) :
    q / 2 ≤ exactOf u := by
  have hq : 0 ≤ q := (underflowAt_pos.trans hl).le
  have hn := h.near (by rwa [abs_of_nonneg hq]) (by rwa [abs_of_nonneg hq])
  rw [abs_of_nonneg hq, abs_of_nonneg (h.nonneg hq)] at hn
  exact (hn.bounds hl).1

theorem pos_iff (h : RoundsTo q u) (hu : |q| < overflowAt) : 0 < exactOf u ↔ underflowAt < q := by
  apply Iff.intro
  · intro hpos
    by_contra hq
    rcases le_or_gt |q| underflowAt with hl | hl
    · exact hpos.ne' (h.zero hl)
    · have hneg : q < 0 := by
        rcases lt_or_ge q 0 with hneg | hq0
        · exact hneg
        · exact absurd (abs_of_nonneg hq0 ▸ hl) hq
      exact (mul_neg_of_neg_of_pos hneg hpos).not_ge h.sign
  · intro hl
    have := h.half_le hl (lt_of_abs_lt hu)
    have := underflowAt_pos
    linarith

end RoundsTo

theorem abs_exactOf_finite (s : Sign) {m : ℕ} {e : ℤ} (hm : 0 < m) :
    |exactOf (.finite s m e hm)| = m * 2 ^ e := by
  rw [exactOf, abs_mul, abs_signFactor, one_mul, abs_of_nonneg]
  exact mul_nonneg m.cast_nonneg (two_zpow_pos e).le

/-- A sign and a rounded magnitude make a rounded number. -/
theorem Rounds.roundsTo {s : Sign} {q : ℚ} {u : UnpackedFloat} (h : Rounds s q u) (hq : 0 ≤ q) :
    RoundsTo (signFactor s * q) u := by
  have habs : |signFactor s * q| = q := by rw [abs_mul, abs_signFactor, one_mul, abs_of_nonneg hq]
  have hlt := underflowAt_lt_overflowAt
  cases h with
  | zero h =>
    refine ⟨rfl, ?_, fun _ => rfl, fun h' => ?_, by simp [exactOf]⟩
    · simpa [habs, UnpackedFloat.isFinite] using h.trans_lt hlt
    · rw [habs] at h'
      exact absurd h' h.not_gt
  | @finite m e hm hl hu hv =>
    refine ⟨rfl, ?_, fun h' => ?_, fun _ _ => ?_, ?_⟩
    · simpa [habs, UnpackedFloat.isFinite] using hu
    · rw [habs] at h'
      exact absurd h' hl.not_ge
    · rwa [habs, abs_exactOf_finite]
    · have hm' : (0 : ℚ) ≤ m * 2 ^ e := mul_nonneg m.cast_nonneg (two_zpow_pos e).le
      calc 0 ≤ signFactor s * signFactor s * (q * (m * 2 ^ e)) := by
            rw [signFactor_mul_self, one_mul]
            exact mul_nonneg hq hm'
        _ = signFactor s * q * exactOf (.finite s m e hm) := by
            rw [exactOf]
            ring
  | infinity h =>
    refine ⟨rfl, ?_, fun _ => rfl, fun _ h' => ?_, by simp [exactOf]⟩
    · simpa [habs, UnpackedFloat.isFinite] using h
    · rw [habs] at h'
      exact absurd h' h.not_gt

theorem roundsTo_zero (s : Sign) : RoundsTo 0 (.zero s) := by
  have h : Rounds s 0 (.zero s) := .zero underflowAt_pos.le
  simpa using h.roundsTo le_rfl

theorem roundsTo_repack_zero (s : Sign) : RoundsTo 0 (repack (.zero s)) := by
  rw [repack_zero]
  exact roundsTo_zero s

/-- Numbers as they are kept in 64 bits. -/
def Kept : UnpackedFloat → Prop
  | .finite _ m e _ => Canonical m e ∧ e ≤ 971
  | _ => True

theorem repack_kept {u : UnpackedFloat} (h : Kept u) : repack u = u := by
  cases u with
  | notANumber => exact repack_notANumber
  | infinity s => exact repack_infinity s
  | zero s => exact repack_zero s
  | finite s m e hm => exact repack_finite s hm h.1 h.2

theorem finite_cases {u : UnpackedFloat} (h : u.isFinite = true) :
    (∃ s, u = .zero s) ∨ ∃ s m e hm, u = .finite s m e hm := by
  cases u with
  | notANumber => cases h
  | infinity s => cases h
  | zero s => exact .inl ⟨s, rfl⟩
  | finite s m e hm => exact .inr ⟨s, m, e, hm, rfl⟩

theorem Canonical.nearest_self {m : ℕ} {e : ℤ} (h : Canonical m e) :
    Nearest (m * 2 ^ e) (m * 2 ^ e) := by
  have hp := two_zpow_pos e
  refine ⟨e, m, h.le, ?_, ?_, rfl, ?_⟩
  · rw [two_zpow_add]
    exact mul_lt_mul_of_pos_right (by exact_mod_cast h.lt) hp
  · refine h.normal.symm.imp_right fun hm => ?_
    rw [two_zpow_add]
    exact mul_le_mul_of_nonneg_right (by exact_mod_cast hm) hp.le
  · rw [mul_div_cancel_right₀ _ hp.ne', sub_self, abs_zero]
    norm_num

/-- A number other than zero is not lost to underflow. -/
theorem underflowAt_lt_abs {u : UnpackedFloat} (h : Kept u) (h0 : exactOf u ≠ 0) :
    underflowAt < |exactOf u| := by
  cases u with
  | finite s m e hm =>
    have h1 : (1 : ℚ) ≤ m := by exact_mod_cast hm
    have hle := two_zpow_le h.1.le
    have hp := two_zpow_pos (-1074)
    rw [abs_exactOf_finite, underflowAt]
    nlinarith
  | _ => exact absurd rfl h0

theorem exactOf_ne_zero (s : Sign) {m : ℕ} (e : ℤ) (hm : 0 < m) :
    exactOf (.finite s m e hm) ≠ 0 := by
  rw [← abs_pos, abs_exactOf_finite]
  exact mul_pos (by exact_mod_cast hm) (two_zpow_pos e)

/-- What is kept is its own rounding. -/
theorem roundsTo_self {u : UnpackedFloat} (h : Kept u) (hf : u.isFinite = true) :
    RoundsTo (exactOf u) u := by
  obtain ⟨s, rfl⟩ | ⟨s, m, e, hm, rfl⟩ := finite_cases hf
  · exact roundsTo_zero s
  have hl := underflowAt_lt_abs h (exactOf_ne_zero s e hm)
  rw [abs_exactOf_finite] at hl
  obtain ⟨hc, he⟩ := h
  have hu : m * 2 ^ e < overflowAt := by
    have hm' : (m : ℚ) + 1 ≤ 2 ^ 53 := by exact_mod_cast hc.lt
    refine (mul_le_mul_of_nonneg_left (two_zpow_le he) m.cast_nonneg).trans_lt ?_
    exact mul_lt_mul_of_pos_right (by linarith) (two_zpow_pos 971)
  have hp := two_zpow_pos e
  have hr : Rounds s (m * 2 ^ e) (.finite s m e hm) := .finite hl hu hc.nearest_self
  exact hr.roundsTo (by positivity)

theorem Kept.neg {u : UnpackedFloat} (h : Kept u) : Kept u.neg := by
  cases u <;> exact h

theorem exactOf_neg (u : UnpackedFloat) : exactOf u.neg = -exactOf u := by
  cases u with
  | finite s m e hm =>
    change signFactor (-s) * _ = -(signFactor s * _)
    rw [signFactor_neg, neg_mul]
  | _ => exact neg_zero.symm

theorem isFinite_neg (u : UnpackedFloat) : u.neg.isFinite = u.isFinite := by
  cases u <;> rfl

theorem le_unitExponent_mul {m n : ℕ} {e f : ℤ} (hm : Canonical m e) (hn : Canonical n f)
    (hm0 : 0 < m) (hn0 : 0 < n) : e + f ≤ unitExponent (m * n) (e + f) := by
  have hlog {k : ℕ} (hk : 2 ^ 52 ≤ k) (hkn : k ≤ m * n) : 52 ≤ (m * n).log2 :=
    (Nat.le_log2 (Nat.mul_pos hm0 hn0).ne').2 (hk.trans hkn)
  have h1 := hm.normal
  have h2 := hn.normal
  rw [unitExponent_eq]
  rcases h1 with h1 | h1
  · have := hlog h1 (Nat.le_mul_of_pos_right m hn0)
    omega
  rcases h2 with h2 | h2
  · have := hlog h2 (Nat.le_mul_of_pos_left n hm0)
    omega
  · omega

theorem rounds_mul (s t : Sign) {m n : ℕ} {e f : ℤ} (hm : 0 < m) (hn : 0 < n)
    (hc : Canonical m e) (hd : Canonical n f) :
    Rounds (s * t) ((m * 2 ^ e) * (n * 2 ^ f))
      (repack ((UnpackedFloat.finite s m e hm).mul .binary64 (.finite t n f hn))) := by
  refine rounds_roundWithAccuracy (s * t) ?_ (le_unitExponent_mul hc hd hm hn)
  rw [Located, div_eq_iff (two_zpow_pos _).ne', two_zpow_add]
  push_cast
  ring

theorem roundsTo_mul {u v : UnpackedFloat} (hu : Kept u) (hv : Kept v) (hfu : u.isFinite = true)
    (hfv : v.isFinite = true) :
    RoundsTo (exactOf u * exactOf v) (repack (u.mul .binary64 v)) := by
  obtain ⟨s, rfl⟩ | ⟨s, m, e, hm, rfl⟩ := finite_cases hfu
  · rw [show exactOf (.zero s) = 0 from rfl, zero_mul]
    obtain ⟨t, rfl⟩ | ⟨t, n, f, hn, rfl⟩ := finite_cases hfv
    · exact roundsTo_repack_zero _
    · exact roundsTo_repack_zero _
  obtain ⟨t, rfl⟩ | ⟨t, n, f, hn, rfl⟩ := finite_cases hfv
  · rw [show exactOf (.zero t) = 0 from rfl, mul_zero]
    exact roundsTo_repack_zero _
  have hr := (rounds_mul s t hm hn hu.1 hv.1).roundsTo (by positivity)
  rw [signFactor_mul, mul_mul_mul_comm] at hr
  exact hr

theorem roundsTo_normalize (k : ℤ) (e : ℤ) (s : Sign) :
    RoundsTo (k * 2 ^ e) (repack (UnpackedFloat.normalize .binary64 k e s)) := by
  rcases lt_trichotomy k 0 with hk | rfl | hk
  · have hn : (((-k).toNat : ℕ) : ℚ) = -k := by exact_mod_cast Int.toNat_of_nonneg (by omega)
    have h := (rounds_round .negative e (m := (-k).toNat) (by omega)).roundsTo (by positivity)
    rw [hn] at h
    rw [UnpackedFloat.normalize, Int.compare_eq_lt.2 hk]
    simpa [signFactor] using h
  · rw [UnpackedFloat.normalize, Int.compare_eq_eq.2 rfl]
    simpa using roundsTo_repack_zero s
  · have hn : ((k.toNat : ℕ) : ℚ) = k := by exact_mod_cast Int.toNat_of_nonneg (by omega)
    have h := (rounds_round .positive e (m := k.toNat) (by omega)).roundsTo (by positivity)
    rw [hn] at h
    rw [UnpackedFloat.normalize, Int.compare_eq_gt.2 hk]
    simpa [signFactor] using h

/-- A mantissa brought to a lower exponent. -/
theorem shiftLeft_value (m : ℕ) {e t : ℤ} (h : t ≤ e) :
    ((m <<< (e - t).toNat : ℕ) : ℚ) * 2 ^ t = m * 2 ^ e := by
  have hv := decreaseExponent_value m (e - t).toNat e
  rw [show e - ((e - t).toNat : ℤ) = t by omega] at hv
  rw [← hv, div_mul_cancel₀ _ (two_zpow_pos t).ne']

theorem roundsTo_add {u v : UnpackedFloat} (hu : Kept u) (hv : Kept v) (hfu : u.isFinite = true)
    (hfv : v.isFinite = true) :
    RoundsTo (exactOf u + exactOf v) (repack (u.add .binary64 v)) := by
  obtain ⟨s, rfl⟩ | ⟨s, m, e, hm, rfl⟩ := finite_cases hfu
  · rw [show exactOf (.zero s) = 0 from rfl, zero_add]
    obtain ⟨t, rfl⟩ | ⟨t, n, f, hn, rfl⟩ := finite_cases hfv
    · cases s <;> cases t <;> exact roundsTo_repack_zero _
    · rw [show (UnpackedFloat.zero s).add .binary64 (.finite t n f hn) = .finite t n f hn from rfl,
        repack_kept hv]
      exact roundsTo_self hv hfv
  obtain ⟨t, rfl⟩ | ⟨t, n, f, hn, rfl⟩ := finite_cases hfv
  · rw [show (UnpackedFloat.finite s m e hm).add .binary64 (.zero t) = .finite s m e hm from rfl,
      show exactOf (.zero t) = 0 from rfl, add_zero, repack_kept hu]
    exact roundsTo_self hu hfu
  have h := roundsTo_normalize
    (s.apply (m <<< (e - min e f).toNat : ℕ) + t.apply (n <<< (f - min e f).toNat : ℕ)) (min e f)
    .positive
  have hval : ((s.apply (m <<< (e - min e f).toNat : ℕ) + t.apply (n <<< (f - min e f).toNat : ℕ) :
      ℤ) : ℚ) * 2 ^ min e f = exactOf (.finite s m e hm) + exactOf (.finite t n f hn) := by
    rw [Int.cast_add, signFactor_apply, signFactor_apply, add_mul, mul_assoc, mul_assoc,
      shiftLeft_value m (min_le_left e f), shiftLeft_value n (min_le_right e f)]
    rfl
  rw [hval] at h
  exact h

theorem infinity_add (s : Sign) {u : UnpackedFloat} (h : u.isFinite = true ∨ u = .infinity s) :
    (UnpackedFloat.infinity s).add .binary64 u = .infinity s := by
  rcases h with h | rfl
  · obtain ⟨t, rfl⟩ | ⟨t, m, e, hm, rfl⟩ := finite_cases h <;> rfl
  · cases s <;> rfl

theorem add_infinity (s : Sign) {u : UnpackedFloat} (h : u.isFinite = true) :
    u.add .binary64 (.infinity s) = .infinity s := by
  obtain ⟨t, rfl⟩ | ⟨t, m, e, hm, rfl⟩ := finite_cases h <;> rfl

theorem sub_eq_add (u v : UnpackedFloat) : u.sub .binary64 v = u.add .binary64 v.neg := by
  cases u <;> cases v <;> try rfl
  case finite.finite s m e hm t n f hn =>
    change UnpackedFloat.normalize _ (_ - _) _ _ = UnpackedFloat.normalize _ (_ + _) _ _
    congr 1
    cases t with
    | negative => exact sub_neg_eq_add _ _
    | positive => exact sub_eq_add_neg _ _

/-- An integer quotient and what its remainder says of the exact one. -/
theorem located_div (a : ℕ) {b : ℕ} (hb : 0 < b) :
    Located (a / b) (a / b : ℚ) (accuracyOfFraction (a % b) b) := by
  have hb' : (0 : ℚ) < b := by exact_mod_cast hb
  have hsum : (b : ℚ) * (a / b : ℕ) + (a % b : ℕ) = a := by exact_mod_cast Nat.div_add_mod a b
  have ha : (a : ℚ) / b = (a / b : ℕ) + (a % b : ℕ) / (b : ℚ) := by
    rw [← hsum, add_div, mul_div_cancel_left₀ _ hb'.ne']
  have hlt : ((a % b : ℕ) : ℚ) / b < 1 := by
    rw [div_lt_one hb']
    exact_mod_cast Nat.mod_lt a hb
  rw [ha, accuracyOfFraction]
  split_ifs with h0
  · rw [Located, h0, Nat.cast_zero, zero_div, add_zero]
  have hpos : 0 < ((a % b : ℕ) : ℚ) / b := div_pos (by exact_mod_cast Nat.pos_of_ne_zero h0) hb'
  rcases lt_trichotomy (2 * (a % b)) b with h | h | h
  · have hhalf : ((a % b : ℕ) : ℚ) / b < 1 / 2 := by
      rw [div_lt_div_iff₀ hb' (by norm_num)]
      exact_mod_cast (by omega : a % b * 2 < 1 * b)
    rw [Nat.compare_eq_lt.2 h]
    exact ⟨by linarith, by linarith⟩
  · have hhalf : ((a % b : ℕ) : ℚ) / b = 1 / 2 := by
      rw [div_eq_div_iff hb'.ne' (by norm_num)]
      exact_mod_cast (by omega : a % b * 2 = 1 * b)
    rw [Nat.compare_eq_eq.2 h, Located, hhalf]
  · have hhalf : 1 / 2 < ((a % b : ℕ) : ℚ) / b := by
      rw [div_lt_div_iff₀ (by norm_num) hb']
      exact_mod_cast (by omega : 1 * b < a % b * 2)
    rw [Nat.compare_eq_gt.2 h]
    exact ⟨by linarith, by linarith⟩

def quotientExponent (m : ℕ) (e : ℤ) (n : ℕ) (f : ℤ) : ℤ :=
  min (e - f) (Format.binary64.targetExponent (totalExponent m e - totalExponent n f))

theorem quotientExponent_eq (m : ℕ) (e : ℤ) (n : ℕ) (f : ℤ) :
    quotientExponent m e n f = min (e - f) (max (m.log2 - n.log2 + (e - f) - 53) (-1074)) := by
  simp only [quotientExponent, Format.targetExponent, totalExponent, Format.mantissaBits,
    Format.minExponent]
  norm_num
  omega

/-- A quotient has enough bits to be rounded. -/
theorem le_unitExponent_div {m n : ℕ} (e f : ℤ) (hm : 0 < m) (hn : 0 < n) :
    quotientExponent m e n f ≤
      unitExponent ((m <<< (e - f - quotientExponent m e n f).toNat) / n)
        (quotientExponent m e n f) := by
  obtain ⟨t, ht⟩ : ∃ t, quotientExponent m e n f = t := ⟨_, rfl⟩
  obtain ⟨k, hk⟩ : ∃ k, (e - f - t).toNat = k := ⟨_, rfl⟩
  rw [ht, hk, unitExponent_eq]
  rw [quotientExponent_eq] at ht
  rcases le_or_gt t (-1074) with hlow | hlow
  · omega
  have hbits : n.log2 + 53 ≤ m.log2 + k := by omega
  have hle : 2 ^ 52 ≤ (m <<< k) / n := by
    rw [Nat.le_div_iff_mul_le hn, Nat.shiftLeft_eq]
    calc 2 ^ 52 * n ≤ 2 ^ 52 * 2 ^ (n.log2 + 1) := Nat.mul_le_mul_left _ Nat.lt_log2_self.le
      _ = 2 ^ (n.log2 + 53) := by rw [← pow_add]; congr 1; omega
      _ ≤ 2 ^ (m.log2 + k) := Nat.pow_le_pow_right (by decide) hbits
      _ = 2 ^ m.log2 * 2 ^ k := pow_add _ _ _
      _ ≤ m * 2 ^ k := Nat.mul_le_mul_right _ (Nat.log2_self_le hm.ne')
  have := (Nat.le_log2 (by omega)).2 hle
  omega

theorem roundsTo_div {u v : UnpackedFloat} (hfu : u.isFinite = true) (hfv : v.isFinite = true)
    (hv0 : exactOf v ≠ 0) : RoundsTo (exactOf u / exactOf v) (repack (u.div .binary64 v)) := by
  obtain ⟨t, rfl⟩ | ⟨t, n, f, hn, rfl⟩ := finite_cases hfv
  · exact absurd rfl hv0
  obtain ⟨s, rfl⟩ | ⟨s, m, e, hm, rfl⟩ := finite_cases hfu
  · rw [show exactOf (.zero s) = 0 from rfl, zero_div]
    exact roundsTo_repack_zero _
  obtain ⟨g, hg⟩ : ∃ g, quotientExponent m e n f = g := ⟨_, rfl⟩
  have hunit := le_unitExponent_div e f hm hn
  have hge : g ≤ e - f := by
    rw [← hg, quotientExponent_eq]
    exact min_le_left _ _
  have hval : (m * 2 ^ e) / (n * 2 ^ f) / 2 ^ g = ((m <<< (e - f - g).toNat : ℕ) : ℚ) / n := by
    have hs := shiftLeft_value m hge
    have hef : (2 : ℚ) ^ e = 2 ^ (e - f) * 2 ^ f := by rw [← two_zpow_add]; congr 1; omega
    rw [hef, ← mul_assoc, mul_div_mul_right _ _ (two_zpow_pos f).ne', ← hs, div_right_comm,
      mul_div_cancel_right₀ _ (two_zpow_pos g).ne']
  have hq := located_div (m <<< (e - f - g).toNat) hn
  rw [← hval] at hq
  rw [hg] at hunit
  have hr := (rounds_roundWithAccuracy (s / t) hq hunit).roundsTo (by positivity)
  rw [signFactor_div, div_mul_div_comm] at hr
  have hdiv : (UnpackedFloat.finite s m e hm).div .binary64 (.finite t n f hn) =
      roundWithAccuracy .binary64 (s / t) ((m <<< (e - f - g).toNat) / n) g
        (accuracyOfFraction ((m <<< (e - f - g).toNat) % n) n) := by
    rw [← hg]
    rfl
  rw [hdiv]
  exact hr

end EquivalentCircuit
