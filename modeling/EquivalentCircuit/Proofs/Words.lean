import EquivalentCircuit.Policy.Basic
import EquivalentCircuit.Proofs.TextOrder

/-! Words: short texts of letters, digits and underscores, as the names in policies are. There are
few such characters, so what holds of each of them is decided; all of them are ASCII, so the bytes of
a text of words are its characters. -/

namespace EquivalentCircuit

/-- What is said of the characters of a list is decided along the list, not over all characters. -/
instance decidableForallMem {cs : List Char} {P : Char → Prop} [DecidablePred P] :
    Decidable (∀ c ∈ cs, P c) :=
  List.decidableBAll P cs

def wordChars : List Char :=
  "ABCDEFGHIJKLMNOPQRSTUVWXYZabcdefghijklmnopqrstuvwxyz0123456789_".toList

structure IsWord (s : String) : Prop where
  ne_nil : s.toList ≠ []
  length_le : s.toList.length ≤ 64
  chars : ∀ c ∈ s.toList, c ∈ wordChars

instance (s : String) : Decidable (IsWord s) :=
  decidable_of_iff (s.toList ≠ [] ∧ s.toList.length ≤ 64 ∧ ∀ c ∈ s.toList, c ∈ wordChars)
    ⟨fun h => ⟨h.1, h.2.1, h.2.2⟩, fun h => ⟨h.1, h.2, h.3⟩⟩

/-- What is true of every character for words is true of those of a word. -/
theorem IsWord.all {s : String} (h : IsWord s) {P : Char → Prop} (hP : ∀ c ∈ wordChars, P c) :
    ∀ c ∈ s.toList, P c :=
  fun c hc => hP c (h.chars c hc)

theorem IsWord.exists_cons {s : String} (h : IsWord s) :
    ∃ c cs, s.toList = c :: cs ∧ c ∈ wordChars := by
  obtain ⟨c, cs, hs⟩ := List.exists_cons_of_ne_nil h.ne_nil
  exact ⟨c, cs, hs, h.chars c (hs ▸ List.mem_cons_self)⟩

/-! The names of choices are words. -/

theorem TapPlacement.isWord_name (p : TapPlacement) : IsWord p.name := by
  cases p <;> decide

theorem ShuntPlacement.isWord_name (p : ShuntPlacement) : IsWord p.name := by
  cases p <;> decide

theorem RatioPlacement.isWord_name (p : RatioPlacement) : IsWord p.name := by
  cases p <;> decide

theorem StarVoltage.isWord_name (v : StarVoltage) : IsWord v.name := by
  cases v <;> decide

theorem LegShunt.isWord_name (s : LegShunt) : IsWord s.name := by
  cases s <;> decide

theorem toList_joinLines (lines : List String) :
    (String.join (lines.map (· ++ "\n"))).toList = lines.flatMap fun l => l.toList ++ ['\n'] := by
  rw [String.toList_join, List.flatMap_map]
  simp only [String.toList_append]
  rfl

/-! Texts of ASCII characters. -/

def IsAscii (cs : List Char) : Prop := ∀ c ∈ cs, c.toNat < 128

theorem isAscii_cons {c : Char} {cs : List Char} :
    IsAscii (c :: cs) ↔ c.toNat < 128 ∧ IsAscii cs :=
  List.forall_mem_cons

theorem IsWord.isAscii {s : String} (h : IsWord s) : IsAscii s.toList :=
  h.all (by decide)

/-! The characters that policies are written with, in any format. -/

def writtenChars : List Char := wordChars ++ "\n \"\x7b\x7d[]:,=.-".toList

def IsWritten (cs : List Char) : Prop := ∀ c ∈ cs, c ∈ writtenChars

instance (cs : List Char) : Decidable (IsWritten cs) :=
  inferInstanceAs (Decidable (∀ c ∈ cs, c ∈ writtenChars))

theorem isWritten_cons {c : Char} {cs : List Char} :
    IsWritten (c :: cs) ↔ c ∈ writtenChars ∧ IsWritten cs :=
  List.forall_mem_cons

theorem isWritten_append {cs ds : List Char} :
    IsWritten (cs ++ ds) ↔ IsWritten cs ∧ IsWritten ds :=
  List.forall_mem_append

theorem IsWord.isWritten {s : String} (h : IsWord s) : IsWritten s.toList :=
  fun c hc => List.mem_append_left _ (h.chars c hc)

theorem IsWritten.isAscii {cs : List Char} (h : IsWritten cs) : IsAscii cs :=
  fun c hc => (by decide : ∀ c ∈ writtenChars, c.toNat < 128) c (h c hc)

theorem utf8EncodeChar_ascii {c : Char} (h : c.toNat < 128) :
    String.utf8EncodeChar c = [c.toUInt8] := by
  have hle : c.val.toNat ≤ 127 := Nat.le_of_lt_succ h
  rw [String.utf8EncodeChar, if_pos hle]
  rfl

theorem flatMap_utf8EncodeChar_ascii {cs : List Char} (h : IsAscii cs) :
    cs.flatMap String.utf8EncodeChar = cs.map Char.toUInt8 := by
  induction cs with
  | nil => rfl
  | cons c cs ih =>
    obtain ⟨hc, hcs⟩ := isAscii_cons.1 h
    rw [List.flatMap_cons, utf8EncodeChar_ascii hc, ih hcs]
    rfl

theorem ofNat_toUInt8 {c : Char} (h : c.toNat < 128) : Char.ofNat c.toUInt8.toNat = c := by
  have hbyte : c.toUInt8.toNat = c.toNat := by
    change c.val.toUInt8.toNat = c.val.toNat
    rw [UInt32.toNat_toUInt8]
    exact Nat.mod_eq_of_lt (Nat.lt_trans h (by decide))
  rw [hbyte, Char.ofNat_toNat]

theorem toList_loop (b : ByteArray) (i : Nat) (r : List UInt8) :
    ByteArray.toList.loop b i r = r.reverse ++ b.data.toList.drop i := by
  induction hn : b.size - i generalizing i r with
  | zero =>
    have hi : b.size ≤ i := by omega
    rw [ByteArray.toList.loop, if_neg (by omega), List.drop_eq_nil_of_le hi, List.append_nil]
  | succ n ih =>
    have hi : i < b.data.toList.length := by
      rw [Array.length_toList, ByteArray.size_data]
      omega
    have hget : b.get! i = b.data.toList[i] := getElem!_pos b.data i hi
    rw [ByteArray.toList.loop, if_pos (by omega), ih (i + 1) _ (by omega),
      List.drop_eq_getElem_cons hi, List.reverse_cons, List.append_assoc, hget]
    rfl

theorem toList_eq_data (b : ByteArray) : b.toList = b.data.toList := toList_loop b 0 []

/-- The bytes of an ASCII text, each as the character of its number, are the text. -/
theorem map_ofNat_toUTF8 {s : String} (h : IsAscii s.toList) :
    (s.toUTF8.toList.map fun x => Char.ofNat x.toNat) = s.toList := by
  have hbytes : s.toUTF8.toList = s.toList.map Char.toUInt8 := by
    rw [toList_eq_data, ← flatMap_utf8EncodeChar_ascii h]
    exact utf8Bytes_eq s
  rw [hbytes, List.map_map]
  exact (List.map_congr_left fun c hc => ofNat_toUInt8 (h c hc)).trans (List.map_id _)

theorem fromUTF8?_toUTF8 (s : String) : String.fromUTF8? s.toUTF8 = some s :=
  dif_pos s.isValidUTF8

theorem fromUTF8?_ascii {cs : List Char} (h : IsAscii cs) :
    String.fromUTF8? ⟨(cs.map Char.toUInt8).toArray⟩ = some (String.ofList cs) := by
  have hbytes : (⟨(cs.map Char.toUInt8).toArray⟩ : ByteArray) = (String.ofList cs).toUTF8 := by
    refine ByteArray.ext (Array.toList_inj.1 ?_)
    change cs.map Char.toUInt8 = utf8Bytes (String.ofList cs)
    rw [utf8Bytes_eq, String.toList_ofList, flatMap_utf8EncodeChar_ascii h]
  rw [hbytes, fromUTF8?_toUTF8]

end EquivalentCircuit
