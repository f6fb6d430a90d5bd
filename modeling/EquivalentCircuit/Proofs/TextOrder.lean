import Mathlib.Tactic.SplitIfs

/-! The order of texts is that of their UTF-8 bytes. A character before another has an encoding that
is smaller at the first byte in which the two differ, so what follows does not matter. -/

namespace EquivalentCircuit

/-- The UTF-8 bytes of a text. -/
def utf8Bytes (s : String) : List UInt8 := s.toUTF8.data.toList

theorem utf8Bytes_eq (s : String) : utf8Bytes s = s.toList.flatMap String.utf8EncodeChar := by
  have h : s.toUTF8 = (s.toList.flatMap String.utf8EncodeChar).toByteArray :=
    String.utf8Encode_toList.symm
  rw [utf8Bytes, h, List.toList_data_toByteArray]

theorem toNat_byte {n : Nat} (h : n < 256) : (UInt8.ofNat n).toNat = n := by
  rw [UInt8.toNat_ofNat', Nat.mod_eq_of_lt h]

/-- Numbers are compared digit by digit, here in the base of the continuation bytes. -/
theorem lt_iff_sextets {v w : Nat} :
    v < w ↔ v / 64 < w / 64 ∨ v / 64 = w / 64 ∧ v % 64 < w % 64 := by
  omega

theorem utf8EncodeChar_append_lt {c d : Char} (h : c < d) (xs ys : List UInt8) :
    String.utf8EncodeChar c ++ xs < String.utf8EncodeChar d ++ ys := by
  have hlt : c.val.toNat < d.val.toNat := UInt32.lt_iff_toNat_lt.1 h
  have hmax : d.val.toNat < 0x110000 := by
    rcases d.valid with hd | ⟨-, hd⟩
    · exact Nat.lt_trans hd (by decide)
    · exact hd
  unfold String.utf8EncodeChar
  generalize c.val.toNat = v at *
  generalize d.val.toNat = w at *
  have hdigits := lt_iff_sextets.1 hlt
  rw [@lt_iff_sextets (v / 64), @lt_iff_sextets (v / 64 / 64)] at hdigits
  -- the leading byte of four holds all that is left of the number
  have hv : v / 4096 = v / 64 / 64 ∧ v / 262144 % 8 = v / 64 / 64 / 64 := by omega
  have hw : w / 4096 = w / 64 / 64 ∧ w / 262144 % 8 = w / 64 / 64 / 64 := by omega
  simp only [hv.1, hv.2, hw.1, hw.2]
  -- one case for each pair of lengths; a longer encoding has the greater leading byte
  split_ifs
  all_goals
    simp only [List.cons_append, List.nil_append, List.cons_lt_cons_iff, UInt8.lt_iff_toNat_lt,
      ← UInt8.toNat_inj]
    repeat rw [toNat_byte (by omega)]
    omega

theorem flatMap_utf8EncodeChar_lt {l m : List Char} (h : l < m) :
    l.flatMap String.utf8EncodeChar < m.flatMap String.utf8EncodeChar := by
  induction l generalizing m with
  | nil =>
    cases m with
    | nil => exact absurd h (List.lt_irrefl [])
    | cons d m =>
      obtain ⟨b, bs, hb⟩ := List.exists_cons_of_ne_nil (String.utf8EncodeChar_ne_nil (c := d))
      rw [List.flatMap_cons, hb]
      exact List.nil_lt_cons _ _
  | cons c l ih =>
    cases m with
    | nil => exact absurd h (List.not_lt_nil _)
    | cons d m =>
      rw [List.flatMap_cons, List.flatMap_cons]
      rcases List.cons_lt_cons_iff.1 h with hcd | ⟨rfl, hlm⟩
      · exact utf8EncodeChar_append_lt hcd _ _
      · exact List.append_left_lt (ih hlm)

theorem utf8Bytes_lt {s t : String} (h : s < t) : utf8Bytes s < utf8Bytes t := by
  rw [utf8Bytes_eq, utf8Bytes_eq]
  exact flatMap_utf8EncodeChar_lt (String.lt_iff.1 h)

end EquivalentCircuit
