import Mathlib

/-! The 64 bits of a binary64 number and what they stand for. Packing loses nothing of a number in
canonical form, except that one too large becomes infinite. -/

namespace EquivalentCircuit

open Float.Model Float.Model.UnpackedFloat

/-- The one form in which a finite number other than zero is kept. -/
structure Canonical (m : ℕ) (e : ℤ) : Prop where
  lt : m < 2 ^ 53
  le : -1074 ≤ e
  normal : 2 ^ 52 ≤ m ∨ e = -1074

/-- A number with its leading bit put back before the other 52. -/
theorem toNat_leadingBit (m : BitVec 52) : (1#1 ++ m).toNat = 2 ^ 52 + m.toNat := by
  rw [BitVec.toNat_append, ← Nat.shiftLeft_add_eq_or_of_lt m.isLt]
  rfl

def ofFields (s : Sign) (e : BitVec 11) (m : BitVec 52) : UnpackedFloat :=
  if e = -1#11 then if m = 0#52 then .infinity s else .notANumber
  else if e = 0#11 then
    if h : m = 0#52 then .zero s
    else .finite s m.toNat (e.toNat - 1075 + 1) (BitVec.toNat_pos_of_ne_zero h)
  else .finite s (1#1 ++ m).toNat (e.toNat - 1075) (by rw [toNat_leadingBit]; omega)

theorem unpack_eq_ofFields (b : BitVec 64) :
    UnpackedFloat.unpack .binary64 b =
      ofFields (Sign.ofBitVec (@unpackSign .binary64 b)) (@unpackExponent .binary64 b)
        (@unpackMantissa .binary64 b) :=
  rfl

theorem sign_packComponents (s : Sign) (e : BitVec 11) (m : BitVec 52) :
    Sign.ofBitVec (unpackSign (packComponents .binary64 s e m)) = s := by
  rw [unpackSign_packComponents, Sign.ofBitVec_toBitVec]

theorem unpack_packComponents (s : Sign) (e : BitVec 11) (m : BitVec 52) :
    UnpackedFloat.unpack .binary64 (packComponents .binary64 s e m) = ofFields s e m := by
  rw [unpack_eq_ofFields, sign_packComponents,
    @unpackExponent_packComponents .binary64 s e m, @unpackMantissa_packComponents .binary64 s e m]

/-- Only canonical numbers can be unpacked. -/
theorem canonical_of_ofFields {s s' : Sign} {e : BitVec 11} {m : BitVec 52} {n : ℕ} {k : ℤ}
    {hn : 0 < n} (h : ofFields s e m = .finite s' n k hn) : Canonical n k ∧ k ≤ 971 := by
  have hm := m.isLt
  have he := e.isLt
  unfold ofFields at h
  split_ifs at h with h1 h2 h3 h4
  · cases h
    rw [h3]
    exact ⟨⟨by omega, by decide, Or.inr (by decide)⟩, by decide⟩
  · cases h
    have h1' : e.toNat ≠ 2047 := fun hc => h1 (BitVec.eq_of_toNat_eq hc)
    have h3' : e.toNat ≠ 0 := fun hc => h3 (BitVec.eq_of_toNat_eq hc)
    rw [toNat_leadingBit]
    exact ⟨⟨by omega, by omega, Or.inl (by omega)⟩, by omega⟩

def repack (u : UnpackedFloat) : UnpackedFloat :=
  UnpackedFloat.unpack .binary64 (UnpackedFloat.pack .binary64 u)

theorem repack_notANumber : repack .notANumber = .notANumber := by rfl

theorem repack_infinity (s : Sign) : repack (.infinity s) = .infinity s := by
  cases s <;> rfl

theorem repack_zero (s : Sign) : repack (.zero s) = .zero s := by
  cases s <;> rfl

def biased (e : ℤ) : ℕ := (e + 1075).toNat

theorem pack_finite (s : Sign) {m : ℕ} (e : ℤ) (hm : 0 < m) :
    UnpackedFloat.pack .binary64 (.finite s m e hm) =
      if 2048 ≤ biased e + 1 then packedInfinity .binary64 s
      else if m.log2 + 1 = 53 then
        packComponents .binary64 s (BitVec.ofNat 11 (biased e)) (BitVec.ofNat 52 m)
      else packComponents .binary64 s 0#11 (BitVec.ofNat 52 m) := by
  have hb : (e + (1023 : ℕ) + (52 : ℕ)).toNat = biased e := by
    rw [biased]
    congr 1
    omega
  rw [← hb]
  rfl

theorem repack_overflow (s : Sign) {m : ℕ} {e : ℤ} (hm : 0 < m) (he : 972 ≤ e) :
    repack (.finite s m e hm) = .infinity s := by
  have hb : 2048 ≤ biased e + 1 := by
    rw [biased]
    omega
  rw [repack, pack_finite, if_pos hb]
  exact repack_infinity s

/-- A number with its leading bit keeps its biased exponent and its other 52 bits. -/
theorem repack_normal (s : Sign) {m : ℕ} {e : ℤ} (hm : 0 < m) (hc : Canonical m e) (he : e ≤ 971)
    (hn : 2 ^ 52 ≤ m) : repack (.finite s m e hm) = .finite s m e hm := by
  have hlo := hc.le
  have hlt := hc.lt
  have hb : biased e = e + 1075 := Int.toNat_of_nonneg (by omega)
  have hlog : m.log2 = 52 := (Nat.log2_eq_iff hm.ne').2 ⟨hn, hlt⟩
  have hexp : (BitVec.ofNat 11 (biased e)).toNat = biased e := Nat.mod_eq_of_lt (by omega)
  have hones : BitVec.ofNat 11 (biased e) ≠ -1#11 := by
    have h2047 : (-1#11).toNat = 2047 := rfl
    rw [BitVec.toNat_ne, hexp, h2047]
    omega
  have hzero : BitVec.ofNat 11 (biased e) ≠ 0#11 := by
    have h0 : (0#11).toNat = 0 := rfl
    rw [BitVec.toNat_ne, hexp, h0]
    omega
  have hman : (1#1 ++ BitVec.ofNat 52 m).toNat = m := by
    have hmod : (BitVec.ofNat 52 m).toNat = m % 2 ^ 52 := rfl
    rw [toNat_leadingBit, hmod]
    omega
  rw [repack, pack_finite, if_neg (by omega), if_pos (by omega), unpack_packComponents, ofFields,
    if_neg hones, if_neg hzero]
  simp only [hman, hexp, hb]
  congr 1
  omega

/-- A number without leading bit has the least exponent, and its field is zero. -/
theorem repack_subnormal (s : Sign) {m : ℕ} (hm : 0 < m) (hn : m < 2 ^ 52) :
    repack (.finite s m (-1074) hm) = .finite s m (-1074) hm := by
  have hlog : m.log2 < 52 := (Nat.log2_lt hm.ne').2 hn
  have hman : (BitVec.ofNat 52 m).toNat = m := Nat.mod_eq_of_lt hn
  have hne : BitVec.ofNat 52 m ≠ 0#52 := by
    have h0 : (0#52).toNat = 0 := rfl
    rw [BitVec.toNat_ne, hman, h0]
    omega
  rw [repack, pack_finite, if_neg (by decide), if_neg (by omega), unpack_packComponents, ofFields,
    if_neg (by decide), if_pos rfl, dif_neg hne]
  simp only [hman]
  rfl

theorem repack_finite (s : Sign) {m : ℕ} {e : ℤ} (hm : 0 < m) (hc : Canonical m e) (he : e ≤ 971) :
    repack (.finite s m e hm) = .finite s m e hm := by
  by_cases hn : 2 ^ 52 ≤ m
  · exact repack_normal s hm hc he hn
  · obtain rfl : e = -1074 := hc.normal.resolve_left hn
    exact repack_subnormal s hm (not_le.1 hn)

end EquivalentCircuit
