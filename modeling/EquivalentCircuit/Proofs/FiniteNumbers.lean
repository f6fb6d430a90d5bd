import EquivalentCircuit.Json.Reader
import EquivalentCircuit.Proofs.MachineRange

/-! The numbers of JSON texts. A literal beyond binary64 stands for nothing, so no text spells an
infinity or a value that is no number, and every number of a value that is read is finite. -/

namespace EquivalentCircuit

open Float.Model Float.Model.UnpackedFloat

theorem ten_pow_lt_overflowAt {n : ℕ} (hn : n ≤ 308) : (10 : ℚ) ^ n < overflowAt := by
  -- the mantissa with all of its 53 bits set
  have hmax : (10 : ℕ) ^ 308 < 9007199254740991 * 2 ^ 971 := by decide +kernel
  calc (10 : ℚ) ^ n ≤ 10 ^ 308 := pow_le_pow_right₀ (by norm_num) hn
    _ < 9007199254740991 * 2 ^ (971 : ℕ) := by exact_mod_cast hmax
    _ ≤ (2 ^ 53 - 1 / 2) * 2 ^ (971 : ℕ) :=
      mul_le_mul_of_nonneg_right (by norm_num) (pow_nonneg (by norm_num) _)
    _ = overflowAt := by rw [overflowAt, ← zpow_natCast]; rfl

theorem underflowAt_lt_one : underflowAt < 1 := by
  have h : (2 : ℚ) ^ (-1074 : ℤ) ≤ 2 ^ (0 : ℤ) := two_zpow_le (by decide)
  rw [zpow_zero] at h
  rw [underflowAt]
  linarith

theorem isFinite_toFloat (n : UInt64) : Scalar.isFinite n.toFloat = true := by
  have h : RoundsTo (((n.toNat : ℤ) : ℚ) * 2 ^ (0 : ℤ)) (view n.toFloat) :=
    roundsTo_normalize n.toNat 0 .positive
  have hlt : (n.toNat : ℚ) < 2 ^ 64 := by exact_mod_cast n.toNat_lt
  refine h.isFinite.2 ?_
  rw [Int.cast_natCast, zpow_zero, mul_one, abs_of_nonneg n.toNat.cast_nonneg]
  exact (hlt.trans (by norm_num)).trans (ten_pow_lt_overflowAt (n := 20) (by decide))

namespace JsonNumber

/-! The table of powers. -/

/-- A number that is one or more by its unit alone. -/
def isLarge : UnpackedFloat → Bool
  | .finite .positive m e _ => decide (2 ^ 52 ≤ m ∧ -52 ≤ e)
  | _ => false

theorem one_le_of_isLarge {u : UnpackedFloat} (h : isLarge u = true) :
    u.isFinite = true ∧ 1 ≤ exactOf u := by
  match u, h with
  | .finite .positive m e hm, h =>
    obtain ⟨hm', he⟩ := of_decide_eq_true h
    refine ⟨rfl, ?_⟩
    rw [exactOf, signFactor, one_mul]
    calc (1 : ℚ) = 2 ^ 52 * 2 ^ (-52 : ℤ) := by norm_num
      _ ≤ m * 2 ^ e :=
        mul_le_mul (by exact_mod_cast hm') (two_zpow_le he) (two_zpow_pos _).le m.cast_nonneg

theorem isLarge_powerOfTen : ∀ n ≤ 22, isLarge (view (powerOfTen n)) = true := by
  decide +kernel

/-- From the twenty-third on a power is rounded from its exact value. -/
theorem view_powerOfTen {n : ℕ} (h : 22 < n) (hn : n ≤ 308) :
    view (powerOfTen n) =
      repack (roundWithAccuracy .binary64 .positive (2 ^ 53 * 10 ^ n) (-53) .exact) := by
  have hexact : ¬ (1 < 2 ^ 53 ∧ n ≤ 22) := by omega
  have hlarge : ¬ (n : ℤ) > 2 ^ Format.binary64.exponentBits := by simp; omega
  have hsmall : ¬ (n : ℤ) < -(2 ^ Format.binary64.exponentBits + ((1 : ℕ).log2 : ℕ)) := by
    simp; omega
  have hscientific : powerOfTen n = ⟨Float.Model.ofScientific 1 n⟩ := by
    rw [powerOfTen, Float.ofScientific, dif_neg hexact]
    rfl
  rw [hscientific, view, Float.Model.ofScientific, UnpackedFloat.ofScientific,
    dif_neg (by decide), if_neg hlarge, if_neg hsmall, if_pos (by omega)]
  rfl

theorem rounds_powerOfTen {n : ℕ} (h : 22 < n) (hn : n ≤ 308) :
    Rounds .positive (10 ^ n) (view (powerOfTen n)) := by
  rw [view_powerOfTen h hn]
  refine rounds_roundWithAccuracy .positive ?_ ?_
  · rw [Located, div_eq_iff (two_zpow_pos _).ne']
    push_cast
    norm_num
    ring
  · rw [unitExponent_eq]
    have hlog : 53 ≤ (2 ^ 53 * 10 ^ n).log2 :=
      (Nat.le_log2 (by positivity)).2 (Nat.le_mul_of_pos_right _ (by positivity))
    omega

/-- Every power of the table is finite and one or more. -/
theorem powerOfTen_spec {n : ℕ} (hn : n ≤ 308) :
    Scalar.isFinite (powerOfTen n) = true ∧ 1 ≤ value (powerOfTen n) := by
  rcases le_or_gt n 22 with h | h
  · exact one_le_of_isLarge (isLarge_powerOfTen n h)
  have hpos : (0 : ℚ) ≤ 10 ^ n := by positivity
  have hr : RoundsTo (10 ^ n) (view (powerOfTen n)) := by
    simpa [signFactor] using (rounds_powerOfTen h hn).roundsTo hpos
  have hover := ten_pow_lt_overflowAt hn
  have hten : (10 : ℚ) ^ 1 ≤ 10 ^ n := pow_le_pow_right₀ (by norm_num) (by omega)
  have hunder := underflowAt_lt_one
  refine ⟨hr.isFinite.2 (by rwa [abs_of_nonneg hpos]), ?_⟩
  have hhalf := hr.half_le (by linarith) hover
  rw [value]
  linarith

/-! Scaling. A product may overflow, which is refused; a quotient by a power never does. -/

variable {x y : Float}

theorem isFinite_mul_powerOfTen {n : ℕ} (hn : n ≤ 308) (hx : Scalar.isFinite x = true)
    (h : (x * powerOfTen n).isInf = false) : Scalar.isFinite (x * powerOfTen n) = true := by
  have hnan := (roundsTo_value_mul hx (powerOfTen_spec hn).1).isNaN
  refine (finite_or_infinite hnan).resolve_right ?_
  rintro ⟨s, hs⟩
  change (view (x * powerOfTen n)).isInf = false at h
  rw [hs] at h
  cases h

theorem isFinite_div_powerOfTen {n : ℕ} (hn : n ≤ 308) (hx : Scalar.isFinite x = true) :
    Scalar.isFinite (x / powerOfTen n) = true := by
  obtain ⟨hp, hone⟩ := powerOfTen_spec hn
  refine isFinite_div.2 ⟨hx, .inl ⟨hp, (one_pos.trans_le hone).ne', ?_⟩⟩
  rw [Fits, abs_div, abs_of_pos (one_pos.trans_le hone)]
  exact (div_le_self (abs_nonneg _) hone).trans_lt (fits_value hx)

theorem isFinite_scale (fuel : ℕ) {e : ℤ} (hx : Scalar.isFinite x = true)
    (h : scale fuel x e = some y) : Scalar.isFinite y = true := by
  induction fuel generalizing x e with
  | zero => cases h; exact hx
  | succ fuel ih =>
    simp only [scale] at h
    split_ifs at h with htable hpos hinf hzero
    · cases h
      exact isFinite_mul_powerOfTen htable hx (Bool.not_eq_true _ ▸ hinf)
    · cases h
      exact isFinite_div_powerOfTen htable hx
    · cases h
      exact hx
    · exact ih (isFinite_div_powerOfTen le_rfl hx) h

theorem Literal.isFinite_magnitude {l : Literal} (h : l.magnitude = some x) :
    Scalar.isFinite x = true := by
  have hword := isFinite_toFloat l.scaled.significand.toUInt64
  simp only [magnitude] at h
  split at h
  · exact isFinite_scale 4 hword h
  · split_ifs at h
    · cases h
      rfl
    · exact isFinite_scale 4 hword h
    · exact isFinite_scale 4 hword h

theorem isFinite_integer (n : ℤ) : Scalar.isFinite (integer n).toFloat = true := by
  cases n with
  | ofNat n => exact isFinite_toFloat _
  | negSucc n => exact (isFinite_neg_iff _).2 (isFinite_toFloat _)

theorem Literal.isFinite_value {l : Literal} {n : JsonNumber} (h : l.value = some n) :
    Scalar.isFinite n.toFloat = true := by
  simp only [value] at h
  split_ifs at h
  · cases h
    exact isFinite_integer _
  · cases h
    exact isFinite_integer _
  · obtain ⟨x, hx, rfl⟩ := Option.map_eq_some_iff.1 h
    exact (isFinite_neg_iff x).2 (isFinite_magnitude hx)
  · obtain ⟨x, hx, rfl⟩ := Option.map_eq_some_iff.1 h
    exact isFinite_magnitude hx

end JsonNumber

/-! Values of texts. -/

theorem mapM_eq_some_iff {β γ : Type} {f : β → Option γ} {l : List β} {m : List γ} :
    l.mapM f = some m ↔ List.Forall₂ (fun b c => f b = some c) l m := by
  induction l generalizing m with
  | nil => simp [eq_comm]
  | cons b l ih =>
    rw [List.mapM_cons, List.forall₂_cons_left_iff]
    simp only [Option.bind_eq_bind, Option.bind_eq_some_iff, Option.pure_def, Option.some.injEq, ih]
    constructor
    · rintro ⟨c, hb, m, hl, rfl⟩
      exact ⟨c, m, hb, hl, rfl⟩
    · rintro ⟨c, m, hb, hl, rfl⟩
      exact ⟨c, hb, m, hl, rfl⟩

theorem exists_of_mem_mapM {β γ : Type} {f : β → Option γ} {l : List β} {m : List γ}
    (h : l.mapM f = some m) {c : γ} (hc : c ∈ m) : ∃ b ∈ l, f b = some c := by
  have hrel := mapM_eq_some_iff.1 h
  clear h
  induction hrel with
  | nil => cases hc
  | cons hb _ ih =>
    rcases List.mem_cons.1 hc with rfl | hc
    · exact ⟨_, List.mem_cons_self, hb⟩
    · obtain ⟨b, hmem, hb⟩ := ih hc
      exact ⟨b, List.mem_cons_of_mem _ hmem, hb⟩

inductive Json.Finite : Json → Prop
  | null : Finite null
  | bool (b : Bool) : Finite (bool b)
  | number {n : JsonNumber} (h : Scalar.isFinite n.toFloat = true) : Finite (number n)
  | text (s : String) : Finite (text s)
  | list {items : List Json} (h : ∀ j ∈ items, Finite j) : Finite (list items)
  | record {members : List (String × Json)} (h : ∀ m ∈ members, Finite m.2) :
    Finite (record members)
  | unreadable : Finite unreadable

/-- Whatever the scan gives has the property. -/
def Scan.Yields {β : Type} (P : β → Prop) (scan : Scan β) : Prop :=
  ∀ s b rest, scan s = some (b, rest) → P b

namespace Scan.Yields

variable {β γ : Type} {P : β → Prop} {Q : γ → Prop}

theorem refuse : Yields P Scan.refuse := nofun

theorem pure {b : β} (h : P b) : Yields P (pure b : Scan β) := by
  rintro s _ _ ⟨⟩
  exact h

theorem bind {x : Scan β} {f : β → Scan γ} (hx : Yields P x) (hf : ∀ b, P b → Yields Q (f b)) :
    Yields Q (x >>= f) := by
  intro s c rest h
  obtain ⟨⟨b, t⟩, hb, h⟩ := Option.bind_eq_some_iff.1 h
  exact hf b (hx s b t hb) t c rest h

/-- A part whose result does not matter. -/
theorem skip {x : Scan β} {f : β → Scan γ} (hf : ∀ b, Yields Q (f b)) : Yields Q (x >>= f) :=
  bind (P := fun _ => True) (fun _ _ _ _ => trivial) fun b _ => hf b

end Scan.Yields

namespace Json

open Scan (Yields)

theorem Finite.limited {j : Json} (h : j.Finite) (depth : ℕ) : (limited depth j).Finite := by
  unfold Json.limited
  split_ifs
  · exact h
  · exact .unreadable

theorem Finite.ofMembers {members : List (Option String × Json)}
    (h : ∀ m ∈ members, m.2.Finite) : (ofMembers members).Finite := by
  unfold Json.ofMembers
  split
  · rename_i ms hms
    refine .record fun m hm => ?_
    obtain ⟨⟨name, j⟩, he, hmap⟩ := exists_of_mem_mapM hms hm
    obtain ⟨n, -, rfl⟩ := Option.map_eq_some_iff.1 hmap
    exact h _ he
  · exact .unreadable

/-! Reading with more fuel, once less fuel is known to yield finite numbers. -/

theorem yields_scanValue {fuel : ℕ}
    (hitems : ∀ depth, Yields (fun items => ∀ j ∈ items, j.Finite) (scanItems fuel depth))
    (hmembers : ∀ depth, Yields (fun members => ∀ m ∈ members, m.2.Finite) (scanMembers fuel depth))
    (depth : ℕ) : Yields Finite (scanValue (fuel + 1) depth) := by
  rw [scanValue]
  refine .skip fun next => ?_
  split
  · exact .skip fun _ => .pure .null
  · exact .skip fun _ => .pure (.bool true)
  · exact .skip fun _ => .pure (.bool false)
  · refine .skip fun _ => .skip fun spelled => ?_
    cases spelled with
    | some s => exact .pure (.text s)
    | none => exact .pure .unreadable
  · refine .skip fun _ => .skip fun _ => .skip fun closed => ?_
    split_ifs
    · exact .pure (.limited (.list (List.forall_mem_nil _)) _)
    · exact .bind (hitems _) fun items h => .pure (.limited (.list h) _)
  · refine .skip fun _ => .skip fun _ => .skip fun closed => ?_
    split_ifs
    · exact .pure (.limited (.record (List.forall_mem_nil _)) _)
    · exact .bind (hmembers _) fun members h => .pure ((Finite.ofMembers h).limited _)
  · refine .skip fun literal => ?_
    split
    · rename_i n hn
      exact .pure (.number (JsonNumber.Literal.isFinite_value hn))
    · exact .pure .unreadable

theorem yields_scanItems {fuel depth : ℕ} (hvalue : Yields Finite (scanValue fuel depth))
    (hitems : Yields (fun items => ∀ j ∈ items, j.Finite) (scanItems fuel depth)) :
    Yields (fun items => ∀ j ∈ items, j.Finite) (scanItems (fuel + 1) depth) := by
  rw [scanItems]
  refine .bind hvalue fun j hj => .skip fun _ => .skip fun closed => ?_
  split_ifs
  · exact .pure (List.forall_mem_singleton.2 hj)
  · exact .skip fun _ => .skip fun _ => .bind hitems fun items h =>
      .pure (List.forall_mem_cons.2 ⟨hj, h⟩)

theorem yields_scanMembers {fuel depth : ℕ} (hvalue : Yields Finite (scanValue fuel depth))
    (hmembers : Yields (fun members => ∀ m ∈ members, m.2.Finite) (scanMembers fuel depth)) :
    Yields (fun members => ∀ m ∈ members, m.2.Finite) (scanMembers (fuel + 1) depth) := by
  rw [scanMembers]
  refine .skip fun _ => .skip fun name => .skip fun _ => .skip fun _ => .skip fun _ =>
    .bind hvalue fun j hj => .skip fun _ => .skip fun closed => ?_
  split_ifs
  · exact .pure (List.forall_mem_singleton.2 hj)
  · exact .skip fun _ => .skip fun _ => .bind hmembers fun members h =>
      .pure (List.forall_mem_cons.2 ⟨hj, h⟩)

/-- What a value is read from yields finite numbers only, and so do its items and members. -/
theorem yields_scan (fuel : ℕ) :
    (∀ depth, Yields Finite (scanValue fuel depth)) ∧
      (∀ depth, Yields (fun items => ∀ j ∈ items, j.Finite) (scanItems fuel depth)) ∧
      ∀ depth, Yields (fun members => ∀ m ∈ members, m.2.Finite) (scanMembers fuel depth) := by
  induction fuel with
  | zero => exact ⟨fun _ => .refuse, fun _ => .refuse, fun _ => .refuse⟩
  | succ fuel ih =>
    obtain ⟨hvalue, hitems, hmembers⟩ := ih
    exact ⟨yields_scanValue hitems hmembers,
      fun depth => yields_scanItems (hvalue depth) (hitems depth),
      fun depth => yields_scanMembers (hvalue depth) (hmembers depth)⟩

theorem finite_of_read? {text : String} {j : Json} (h : read? text = some j) : j.Finite := by
  have hyields (fuel : ℕ) : Yields Finite (scanDocument fuel) :=
    .skip fun _ => .bind ((yields_scan fuel).1 0) fun j hj => .skip fun _ => .pure hj
  rw [read?, readBytes?, Scan.whole] at h
  split at h
  · rename_i hscan
    cases h
    exact hyields _ _ _ _ hscan
  · cases h

end Json

end EquivalentCircuit
