import EquivalentCircuit.Proofs.MachineRange

/-! The sign of machine numbers. Rounding treats the two signs alike, so the sum of two negated
numbers is the negated sum; only a sum of zero has its sign by a rule of its own, and the two zeros
are numerically equal. -/

namespace EquivalentCircuit

open Float.Model Float.Model.UnpackedFloat

theorem sign_neg_neg (s : Sign) : - -s = s := by
  cases s <;> rfl

theorem neg_neg_eq (u : UnpackedFloat) : u.neg.neg = u := by
  cases u <;> simp [UnpackedFloat.neg, sign_neg_neg]

theorem isNaN_neg (u : UnpackedFloat) : u.neg.isNaN = u.isNaN := by
  cases u <;> rfl

theorem compare_sign_eq_iff {s t : Sign} : compare s t = .eq ↔ s = t := by
  cases s <;> cases t
  · exact iff_of_true rfl rfl
  · exact iff_of_false (fun h => nomatch h) (fun h => nomatch h)
  · exact iff_of_false (fun h => nomatch h) (fun h => nomatch h)
  · exact iff_of_true rfl rfl

/-- Numbers that compare as equal are the same, or the two zeros. -/
theorem beq_iff {u v : UnpackedFloat} :
    u.beq v = true ↔
      u.isNaN = false ∧ u = v ∨ (∃ s, u = .zero s) ∧ ∃ t, v = .zero t := by
  cases u with
  | notANumber => simp [UnpackedFloat.beq, UnpackedFloat.compare, UnpackedFloat.isNaN]
  | infinity s =>
    cases v with
    | infinity t =>
      simp [UnpackedFloat.beq, UnpackedFloat.compare, UnpackedFloat.isNaN, compare_sign_eq_iff]
    | _ => cases s <;> simp [UnpackedFloat.beq, UnpackedFloat.compare]
  | zero s =>
    cases v with
    | infinity t => cases t <;> simp [UnpackedFloat.beq, UnpackedFloat.compare]
    | finite t n f hn => cases t <;> simp [UnpackedFloat.beq, UnpackedFloat.compare]
    | _ => simp [UnpackedFloat.beq, UnpackedFloat.compare]
  | finite s m e hm =>
    cases v with
    | infinity t => cases t <;> simp [UnpackedFloat.beq, UnpackedFloat.compare]
    | finite t n f hn =>
      cases s <;> cases t <;>
        simp [UnpackedFloat.beq, UnpackedFloat.compare, UnpackedFloat.isNaN, and_comm]
    | _ => cases s <;> simp [UnpackedFloat.beq, UnpackedFloat.compare]

/-! Rounding and packing. -/

theorem ofFields_neg (s : Sign) (e : BitVec 11) (m : BitVec 52) :
    ofFields (-s) e m = (ofFields s e m).neg := by
  unfold ofFields
  split_ifs <;> rfl

theorem repack_neg (u : UnpackedFloat) : repack u.neg = (repack u).neg := by
  cases u with
  | notANumber => rfl
  | infinity s => cases s <;> rfl
  | zero s => cases s <;> rfl
  | finite s m e hm =>
    rw [UnpackedFloat.neg, repack, repack, pack_finite, pack_finite]
    split_ifs
    · cases s <;> rfl
    · rw [unpack_packComponents, unpack_packComponents, ofFields_neg]
    · rw [unpack_packComponents, unpack_packComponents, ofFields_neg]

theorem roundWithAccuracy_neg (s : Sign) (m : ℕ) (e : ℤ) (a : Accuracy) :
    roundWithAccuracy .binary64 (-s) m e a = (roundWithAccuracy .binary64 s m e a).neg := by
  unfold roundWithAccuracy
  dsimp only
  split_ifs <;> rfl

theorem normalize_neg {k : ℤ} (hk : k ≠ 0) (e : ℤ) (s t : Sign) :
    UnpackedFloat.normalize .binary64 (-k) e s = (UnpackedFloat.normalize .binary64 k e t).neg := by
  unfold UnpackedFloat.normalize
  rcases lt_or_gt_of_ne hk with h | h
  · rw [Int.compare_eq_lt.2 h, Int.compare_eq_gt.2 (by omega)]
    exact roundWithAccuracy_neg .negative _ _ _
  · rw [Int.compare_eq_gt.2 h, Int.compare_eq_lt.2 (by omega), neg_neg]
    exact roundWithAccuracy_neg .positive _ _ _

theorem apply_neg (s : Sign) (k : ℤ) : (-s).apply k = -s.apply k := by
  cases s with
  | positive => rfl
  | negative => exact (neg_neg k).symm

/-- The sum of two negated numbers is the negated sum, unless both sums are zero. -/
theorem add_neg_neg {u v : UnpackedFloat} (hu : u.isFinite = true) (hv : v.isFinite = true) :
    u.neg.add .binary64 v.neg = (u.add .binary64 v).neg ∨
      (∃ s, u.neg.add .binary64 v.neg = .zero s) ∧ ∃ t, u.add .binary64 v = .zero t := by
  obtain ⟨s, rfl⟩ | ⟨s, m, e, hm, rfl⟩ := finite_cases hu
  · obtain ⟨t, rfl⟩ | ⟨t, n, f, hn, rfl⟩ := finite_cases hv
    · right
      cases s <;> cases t <;> exact ⟨⟨_, rfl⟩, _, rfl⟩
    · exact .inl rfl
  obtain ⟨t, rfl⟩ | ⟨t, n, f, hn, rfl⟩ := finite_cases hv
  · exact .inl rfl
  set k := s.apply (m <<< (e - min e f).toNat : ℕ) + t.apply (n <<< (f - min e f).toNat : ℕ)
    with hk
  have hadd : (UnpackedFloat.finite s m e hm).add .binary64 (.finite t n f hn) =
      UnpackedFloat.normalize .binary64 k (min e f) .positive := rfl
  have hneg : (UnpackedFloat.finite s m e hm).neg.add .binary64
      (UnpackedFloat.finite t n f hn).neg =
      UnpackedFloat.normalize .binary64 (-k) (min e f) .positive := by
    rw [hk, neg_add, ← apply_neg, ← apply_neg]
    rfl
  rw [hadd, hneg]
  by_cases h0 : k = 0
  · rw [h0]
    exact .inr ⟨⟨_, rfl⟩, _, rfl⟩
  · exact .inl (normalize_neg h0 _ _ _)

/-! Machine numbers. -/

section Machine

variable {x y : Float}

theorem equal_iff :
    Scalar.equal x y ↔ (view x).isNaN = false ∧ view x = view y ∨
      (∃ s, view x = .zero s) ∧ ∃ t, view y = .zero t :=
  beq_iff (u := view x) (v := view y)

/-- One number is the negation of another if the other is that of the one. -/
theorem equal_neg_comm (h : Scalar.equal y (-x)) : Scalar.equal x (-y) := by
  rw [equal_iff, view_neg] at h ⊢
  rcases h with ⟨hn, h⟩ | ⟨⟨s, hs⟩, t, ht⟩
  · rw [h, neg_neg_eq]
    rw [h, isNaN_neg] at hn
    exact .inl ⟨hn, rfl⟩
  · rw [hs, ← neg_neg_eq (view x), ht]
    exact .inr ⟨⟨_, rfl⟩, _, rfl⟩

theorem isNaN_of_isFinite (h : Scalar.isFinite x) : (view x).isNaN = false := by
  obtain ⟨s, hs⟩ | ⟨s, m, e, hm, hs⟩ := finite_cases h
  · rw [show view x = _ from hs]
    rfl
  · rw [show view x = _ from hs]
    rfl

theorem equal_self (h : (view x).isNaN = false) : Scalar.equal x x :=
  equal_iff.2 (.inl ⟨h, rfl⟩)

theorem isNaN_add (hx : Scalar.isFinite x) (hy : Scalar.isFinite y) :
    (view (x + y)).isNaN = false :=
  (roundsTo_value_add hx hy).isNaN

theorem equal_neg_add_neg (hx : Scalar.isFinite x) (hy : Scalar.isFinite y) :
    Scalar.equal (-x + -y) (-(x + y)) := by
  have hview : view (-x + -y) = repack ((view x).neg.add .binary64 (view y).neg) := by
    rw [view_add, view_neg, view_neg]
  have hsum : view (-(x + y)) = repack ((view x).add .binary64 (view y)).neg := by
    rw [view_neg, view_add, repack_neg]
  rw [equal_iff]
  rcases add_neg_neg (u := view x) (v := view y) hx hy with h | ⟨⟨s, hs⟩, t, ht⟩
  · refine .inl ⟨?_, by rw [hview, hsum, h]⟩
    exact isNaN_add ((isFinite_neg_iff x).2 hx) ((isFinite_neg_iff y).2 hy)
  · rw [hview, hsum, hs, ht, repack_zero, UnpackedFloat.neg, repack_zero]
    exact .inr ⟨⟨_, rfl⟩, _, rfl⟩

end Machine

end EquivalentCircuit
