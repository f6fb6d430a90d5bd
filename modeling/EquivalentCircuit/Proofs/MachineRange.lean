import EquivalentCircuit.Proofs.MachineArithmetic

/-! When a machine operation stays finite. The tests of the scalar are read off the exact values,
and no operation but a division by infinity makes a finite number of one that is not. -/

namespace EquivalentCircuit

open Float.Model Float.Model.UnpackedFloat

def view (x : Float) : UnpackedFloat := x.toModel.unpack

def value (x : Float) : ℚ := exactOf (view x)

/-- The exact result `q` is not rounded to infinity. -/
def Fits (q : ℚ) : Prop := |q| < overflowAt

theorem kept_view (x : Float) : Kept (view x) := by
  cases h : view x with
  | finite s m e hm => exact canonical_of_ofFields ((unpack_eq_ofFields _).symm.trans h)
  | _ => trivial

theorem isFinite_eq (x : Float) : Scalar.isFinite x = (view x).isFinite := rfl

theorem view_add (x y : Float) : view (x + y) = repack ((view x).add .binary64 (view y)) := rfl

theorem view_sub (x y : Float) : view (x - y) = repack ((view x).sub .binary64 (view y)) := rfl

theorem view_mul (x y : Float) : view (x * y) = repack ((view x).mul .binary64 (view y)) := rfl

theorem view_div (x y : Float) : view (x / y) = repack ((view x).div .binary64 (view y)) := rfl

theorem view_neg (x : Float) : view (-x) = (view x).neg := repack_kept (kept_view x).neg

theorem view_zero : view 0 = .zero .positive := rfl

theorem value_neg (x : Float) : value (-x) = -value x := by
  rw [value, view_neg, exactOf_neg, value]

theorem isFinite_neg_iff (x : Float) : Scalar.isFinite (-x) ↔ Scalar.isFinite x := by
  rw [isFinite_eq, view_neg, isFinite_neg, isFinite_eq]

section Operations

variable {x y : Float}

theorem roundsTo_value_add (hx : Scalar.isFinite x) (hy : Scalar.isFinite y) :
    RoundsTo (value x + value y) (view (x + y)) :=
  roundsTo_add (kept_view x) (kept_view y) hx hy

theorem roundsTo_value_sub (hx : Scalar.isFinite x) (hy : Scalar.isFinite y) :
    RoundsTo (value x - value y) (view (x - y)) := by
  have h := roundsTo_add (kept_view x) (kept_view y).neg hx (by rwa [isFinite_neg])
  rwa [exactOf_neg, ← sub_eq_add_neg, ← sub_eq_add] at h

theorem roundsTo_value_mul (hx : Scalar.isFinite x) (hy : Scalar.isFinite y) :
    RoundsTo (value x * value y) (view (x * y)) :=
  roundsTo_mul (kept_view x) (kept_view y) hx hy

theorem roundsTo_value_div (hx : Scalar.isFinite x) (hy : Scalar.isFinite y) (h0 : value y ≠ 0) :
    RoundsTo (value x / value y) (view (x / y)) :=
  roundsTo_div hx hy h0

theorem isFinite_repack {u : UnpackedFloat} (h : (repack u).isFinite = true) :
    u.isFinite = true := by
  cases u with
  | notANumber => cases h
  | infinity s => cases s <;> cases h
  | zero s => rfl
  | finite s m e hm => rfl

theorem isFinite_of_add {u v : UnpackedFloat} (h : (u.add .binary64 v).isFinite = true) :
    u.isFinite = true ∧ v.isFinite = true := by
  cases u <;> cases v <;> simp [UnpackedFloat.isFinite, UnpackedFloat.add] at h ⊢
  split_ifs at h

theorem isFinite_of_mul {u v : UnpackedFloat} (h : (u.mul .binary64 v).isFinite = true) :
    u.isFinite = true ∧ v.isFinite = true := by
  cases u <;> cases v <;> simp [UnpackedFloat.isFinite, UnpackedFloat.mul] at h ⊢

theorem isFinite_iff {z : Float} {q : ℚ}
    (hop : Scalar.isFinite z → Scalar.isFinite x ∧ Scalar.isFinite y)
    (hr : Scalar.isFinite x → Scalar.isFinite y → RoundsTo q (view z)) :
    Scalar.isFinite z ↔ Scalar.isFinite x ∧ Scalar.isFinite y ∧ Fits q := by
  apply Iff.intro
  · intro h
    obtain ⟨hx, hy⟩ := hop h
    exact ⟨hx, hy, (hr hx hy).isFinite.1 h⟩
  · rintro ⟨hx, hy, hq⟩
    exact (hr hx hy).isFinite.2 hq

theorem isFinite_add :
    Scalar.isFinite (x + y) ↔
      Scalar.isFinite x ∧ Scalar.isFinite y ∧ Fits (value x + value y) :=
  isFinite_iff (fun h => isFinite_of_add (isFinite_repack h)) roundsTo_value_add

theorem isFinite_add_of_isFinite (hx : Scalar.isFinite x) (hy : Scalar.isFinite y) :
    Scalar.isFinite (x + y) ↔ Fits (value x + value y) := by
  rw [isFinite_add, and_iff_right hx, and_iff_right hy]

theorem isFinite_sub :
    Scalar.isFinite (x - y) ↔
      Scalar.isFinite x ∧ Scalar.isFinite y ∧ Fits (value x - value y) := by
  refine isFinite_iff (fun h => ?_) roundsTo_value_sub
  rw [isFinite_eq, view_sub, sub_eq_add] at h
  obtain ⟨hx, hy⟩ := isFinite_of_add (isFinite_repack h)
  exact ⟨hx, by rwa [isFinite_neg] at hy⟩

theorem isFinite_mul :
    Scalar.isFinite (x * y) ↔
      Scalar.isFinite x ∧ Scalar.isFinite y ∧ Fits (value x * value y) :=
  isFinite_iff (fun h => isFinite_of_mul (isFinite_repack h)) roundsTo_value_mul

def IsInfinite (x : Float) : Prop := ∃ s, view x = .infinity s

theorem IsInfinite.not_finite (hx : IsInfinite x) : ¬ Scalar.isFinite x := by
  obtain ⟨s, hs⟩ := hx
  rw [isFinite_eq, hs]
  exact Bool.false_ne_true

theorem isFinite_of_div {u v : UnpackedFloat} (h : (u.div .binary64 v).isFinite = true) :
    u.isFinite = true ∧ (v.isFinite = true ∧ exactOf v ≠ 0 ∨ ∃ s, v = .infinity s) := by
  cases u <;> cases v <;> simp [UnpackedFloat.isFinite, UnpackedFloat.div] at h ⊢
  all_goals exact exactOf_ne_zero _ _ (by assumption)

theorem isFinite_div_of_infinite (hx : Scalar.isFinite x) (hy : IsInfinite y) :
    Scalar.isFinite (x / y) ∧ value (x / y) = 0 := by
  obtain ⟨s, hs⟩ := hy
  rw [isFinite_eq, value, view_div, hs]
  obtain ⟨t, ht⟩ | ⟨t, m, e, hm, ht⟩ := finite_cases hx
  all_goals
    rw [show view x = _ from ht]
    change (repack (.zero (t / s))).isFinite = true ∧ exactOf (repack (.zero (t / s))) = 0
    rw [repack_zero]
    exact ⟨rfl, rfl⟩

theorem isFinite_div :
    Scalar.isFinite (x / y) ↔
      Scalar.isFinite x ∧
        (Scalar.isFinite y ∧ value y ≠ 0 ∧ Fits (value x / value y) ∨ IsInfinite y) := by
  apply Iff.intro
  · intro h
    obtain ⟨hx, ⟨hy, h0⟩ | hy⟩ := isFinite_of_div (isFinite_repack h)
    · exact ⟨hx, .inl ⟨hy, h0, (roundsTo_value_div hx hy h0).isFinite.1 h⟩⟩
    · exact ⟨hx, .inr hy⟩
  · rintro ⟨hx, ⟨hy, h0, hq⟩ | hy⟩
    · exact (roundsTo_value_div hx hy h0).isFinite.2 hq
    · exact (isFinite_div_of_infinite hx hy).1

theorem isPositive_eq (x : Float) :
    Scalar.isPositive x = !(view x).le (.zero .positive) := by
  have h : Scalar.atMost x 0 = (view x).le (.zero .positive) := by
    change decide (decide ((view x).le (view 0) = true) = true) = _
    rw [view_zero]
    simp
  exact congrArg not h

theorem isPositive_iff (hx : Scalar.isFinite x) : Scalar.isPositive x ↔ 0 < value x := by
  rw [isPositive_eq, value]
  obtain ⟨s, hs⟩ | ⟨s, m, e, hm, hs⟩ := finite_cases hx
  · rw [show view x = _ from hs]
    cases s <;> simp [UnpackedFloat.le, UnpackedFloat.compare, exactOf]
  · have hp : (0 : ℚ) < m * 2 ^ e := mul_pos (by exact_mod_cast hm) (two_zpow_pos e)
    rw [show view x = _ from hs, exactOf]
    cases s with
    | positive => simpa [UnpackedFloat.le, UnpackedFloat.compare, signFactor] using hp
    | negative => simpa [UnpackedFloat.le, UnpackedFloat.compare, signFactor] using hp.le

theorem lt_iff_view {x y : Float} : x < y ↔ (view x).lt (view y) = true := by
  have h : (x < y) = (decide ((view x).lt (view y) = true) = true) := rfl
  rw [h, decide_eq_true_eq]

theorem isPositive_iff_lt (hx : Scalar.isFinite x) : Scalar.isPositive x ↔ 0 < x := by
  have h0 : view (0 : Float) = .zero .positive := view_zero
  rw [isPositive_eq, lt_iff_view, h0]
  obtain ⟨s, hs⟩ | ⟨s, m, e, hm, hs⟩ := finite_cases hx
  · rw [show view x = _ from hs]
    cases s <;> simp [UnpackedFloat.le, UnpackedFloat.lt, UnpackedFloat.compare]
  · rw [show view x = _ from hs]
    cases s <;> simp [UnpackedFloat.le, UnpackedFloat.lt, UnpackedFloat.compare]

theorem isZero_iff : Scalar.isZero x ↔ Scalar.isFinite x ∧ value x = 0 := by
  have h : Scalar.isZero x = (view x).beq (.zero .positive) := rfl
  rw [h, isFinite_eq, value]
  cases view x with
  | notANumber => simp [UnpackedFloat.beq, UnpackedFloat.compare, UnpackedFloat.isFinite]
  | infinity s =>
    cases s <;> simp [UnpackedFloat.beq, UnpackedFloat.compare, UnpackedFloat.isFinite]
  | zero s => simp [UnpackedFloat.beq, UnpackedFloat.compare, UnpackedFloat.isFinite, exactOf]
  | finite s m e hm =>
    have h0 := exactOf_ne_zero s e hm
    cases s <;> simpa [UnpackedFloat.beq, UnpackedFloat.compare, UnpackedFloat.isFinite] using h0

theorem mul_neg_neg (u v : UnpackedFloat) :
    u.neg.mul .binary64 v.neg = u.mul .binary64 v := by
  have hs (s t : Sign) : -s * -t = s * t := by cases s <;> cases t <;> rfl
  cases u <;> cases v <;> simp [UnpackedFloat.neg, UnpackedFloat.mul, hs]

theorem neg_mul_neg_eq (x y : Float) : -x * -y = x * y := by
  change Float.ofModel _ = Float.ofModel _
  congr 1
  change Float.Model.pack _ = Float.Model.pack _
  congr 1
  exact (congrArg₂ _ (view_neg x) (view_neg y)).trans (mul_neg_neg _ _)

theorem finite_or_infinite (h : (view x).isNaN = false) :
    Scalar.isFinite x ∨ IsInfinite x := by
  rw [isFinite_eq]
  cases hx : view x with
  | notANumber => rw [hx] at h; cases h
  | infinity s => exact .inr ⟨s, hx⟩
  | zero s => exact .inl rfl
  | finite s m e hm => exact .inl rfl

theorem value_mul_self_nonneg (hx : Scalar.isFinite x) : 0 ≤ value (x * x) :=
  (roundsTo_value_mul hx hx).nonneg (mul_self_nonneg _)

/-- A square that overflows is the positive infinity. -/
theorem view_mul_self (hx : Scalar.isFinite x) (h : ¬ Scalar.isFinite (x * x)) :
    view (x * x) = .infinity .positive := by
  have hs (s : Sign) : s * s = .positive := by cases s <;> rfl
  obtain ⟨s, hv⟩ | ⟨s, m, e, hm, hv⟩ := finite_cases hx
  · refine absurd ?_ h
    rw [isFinite_eq, view_mul, show view x = _ from hv]
    cases s <;> rfl
  · have hk : Kept (view x) := kept_view x
    rw [show view x = _ from hv] at hk
    have hr := rounds_mul s s hm hm hk.1 hk.1
    rw [isFinite_eq, view_mul, show view x = _ from hv] at h
    rw [view_mul, show view x = _ from hv]
    rw [hs] at hr
    revert h hr
    generalize repack _ = u
    intro h hr
    cases hr with
    | zero _ => exact absurd rfl h
    | finite _ _ _ => exact absurd rfl h
    | infinity _ => rfl

/-- A square below the underflow threshold is zero. -/
theorem value_mul_self_eq_zero (hx : Scalar.isFinite x)
    (h : ¬ underflowAt < value x ^ 2) : Scalar.isFinite (x * x) ∧ value (x * x) = 0 := by
  have hr := roundsTo_value_mul hx hx
  have habs : |value x * value x| ≤ underflowAt := by
    rw [abs_of_nonneg (mul_self_nonneg _), ← sq]
    exact not_lt.1 h
  exact ⟨hr.isFinite.2 (habs.trans_lt underflowAt_lt_overflowAt), hr.zero habs⟩

/-- A square above the underflow threshold is at most one rounding away. -/
theorem half_le_value_mul_self (hx : Scalar.isFinite x) (hxx : Scalar.isFinite (x * x))
    (h : underflowAt < value x ^ 2) :
    value x ^ 2 / 2 ≤ value (x * x) ∧ underflowAt < value (x * x) := by
  have hr := roundsTo_value_mul hx hx
  rw [← sq] at hr
  have hhalf : value x ^ 2 / 2 ≤ value (x * x) :=
    hr.half_le h (lt_of_abs_lt (hr.isFinite.1 hxx))
  have hpos : 0 < value (x * x) := by
    have := underflowAt_pos
    linarith
  have hu := underflowAt_lt_abs (kept_view (x * x)) hpos.ne'
  exact ⟨hhalf, by rwa [← value, abs_of_pos hpos] at hu⟩

theorem fits_value (hx : Scalar.isFinite x) : Fits (value x) :=
  (roundsTo_self (kept_view x) hx).isFinite.1 hx

end Operations

end EquivalentCircuit
