import EquivalentCircuit.Proofs.ExactScalar
import EquivalentCircuit.Proofs.KeptControls
import EquivalentCircuit.Proofs.TapSize

/-! Combinations of several tap changers. Which two are combined first matters neither for the
result, as far as it is not rounded, nor for the number of conflicts: tap changers that regulate
are met one after the other, and each but the first is one conflict. -/

namespace EquivalentCircuit

variable {α : Type}

/-! Of controls that are put together in parts the same one survives. -/

theorem find?_survivor (rs : List (Regulation α)) :
    (survivor rs).toList.find? (·.enabled) = rs.find? (·.enabled) := by
  cases h : rs.find? (·.enabled) with
  | some r => simp [survivor, h, List.find?_some h]
  | none =>
    have hidle : ∀ r ∈ rs.head?.toList, ¬ r.enabled := fun r hr =>
      List.find?_eq_none.1 h r (List.mem_of_mem_head? (Option.mem_toList.1 hr))
    simpa [survivor, h] using hidle

theorem survivor_append (rs ss : List (Regulation α)) :
    survivor (rs ++ ss) =
      ((rs.find? (·.enabled)).or (ss.find? (·.enabled))).or (rs.head?.or ss.head?) := by
  rw [survivor, List.find?_append, List.head?_append]

theorem survivor_append_left (rs ss : List (Regulation α)) :
    survivor ((survivor rs).toList ++ ss) = survivor (rs ++ ss) := by
  rw [survivor_append, survivor_append, find?_survivor]
  cases h : rs.find? (·.enabled) <;> simp [survivor, h]

theorem survivor_append_right (rs ss : List (Regulation α)) :
    survivor (rs ++ (survivor ss).toList) = survivor (rs ++ ss) := by
  rw [survivor_append, survivor_append, find?_survivor]
  cases h : ss.find? (·.enabled) <;> simp [survivor, h]

/-! Associativity, field by field. -/

theorem composeDeviation_assoc (x y z : ℝ) :
    composeDeviation (composeDeviation x y) z = composeDeviation x (composeDeviation y z) := by
  change x + y + x * y + z + (x + y + x * y) * z = x + (y + z + y * z) + x * (y + z + y * z)
  ring

theorem TapStep.compose_assoc (s t u : TapStep ℝ) :
    (s.compose t).compose u = s.compose (t.compose u) := by
  apply TapStep.ext
  · exact mul_assoc s.rho t.rho u.rho
  · exact congrArg Quantity.mk (add_assoc s.angle.value t.angle.value u.angle.value)
  · exact composeDeviation_assoc s.rdr t.rdr u.rdr
  · exact composeDeviation_assoc s.rdx t.rdx u.rdx
  · exact composeDeviation_assoc s.rdg t.rdg u.rdg
  · exact composeDeviation_assoc s.rdb t.rdb u.rdb

namespace TapChanger

theorem indexOf_product_assoc [Scalar α] (w : Position) (a b c : TapChanger α) :
    (product (product a b) c).indexOf w = (product a (product b c)).indexOf w := by
  simp only [indexOf_product, Within.length_product]
  ring

theorem steps_product_assoc (a b c : TapChanger ℝ) :
    (product (product a b) c).steps = (product a (product b c)).steps := by
  simp only [product, List.flatMap_assoc, List.flatMap_map, List.map_flatMap, List.map_map,
    Function.comp_def, TapStep.compose_assoc]

theorem regulation_product_assoc [Scalar α] (a b c : TapChanger α) :
    (product (product a b) c).regulation = (product a (product b c)).regulation := by
  have hkept (a b : TapChanger α) :
      (product a b).regulation = survivor (a.regulation.toList ++ b.regulation.toList) :=
    Carried.keptRegulation_eq a b
  simp only [hkept, survivor_append_left, survivor_append_right, List.append_assoc]

theorem product_assoc (a b c : TapChanger ℝ) :
    product (product a b) c = product a (product b c) := by
  apply TapChanger.ext
  · simp only [product, String.append_assoc]
  · exact congrArg (fun n => -Int32.ofNat n) (indexOf_product_assoc .neutral a b c)
  · exact steps_product_assoc a b c
  · exact indexOf_product_assoc .neutral a b c
  · exact indexOf_product_assoc .current a b c
  · exact regulation_product_assoc a b c

theorem combine_assoc (a b c : Option (TapChanger ℝ)) :
    combine (combine a b) c = combine a (combine b c) := by
  cases a with
  | none => simp
  | some a =>
    cases b with
    | none => simp
    | some b =>
      cases c with
      | none => simp
      | some c => exact congrArg some (product_assoc a b c)

end TapChanger

/-! Conflicts, counted. -/

def Diagnostics.conflictCount (d : Diagnostics) : Nat :=
  (d.ofCondition .conflictingRegulation).warningCount

open TapChanger (combine conflicts combine_none none_combine combine_assoc conflicts_none
  exists_reports_conflicts)

theorem Diagnostics.conflictCount_append (d e : Diagnostics) :
    conflictCount (d ++ e) = d.conflictCount + e.conflictCount := by
  rw [conflictCount, ofCondition_append]
  exact List.countP_append

theorem conflictCount_conflicts (a b : Option (TapChanger α)) :
    (conflicts a b).conflictCount = if Regulates a ∧ Regulates b then 1 else 0 := by
  obtain ⟨issue, hissue, h⟩ := exists_reports_conflicts a b
  rw [hissue]
  cases issue with
  | none =>
    rw [if_neg fun hboth => nomatch h.isSome_iff.2 hboth]
    rfl
  | some i =>
    rw [if_pos (h.isSome_iff.1 rfl)]
    simp [Diagnostics.conflictCount, Diagnostics.ofCondition, Diagnostics.warningCount,
      h.severity i rfl, h.condition i rfl]

theorem regulates_combine [Scalar α] (a b : Option (TapChanger α)) :
    Regulates (combine a b) ↔ Regulates a ∨ Regulates b := by
  rw [regulates_iff, regulates_iff, regulates_iff, ← enabled_survivor_or, ← Carried.join_ofSlot,
    Carried.ofSlot_combine, Carried.join_merge, Carried.join_ofSlot, Carried.join_ofSlot]

/-- Tap changers in a row, put together two at a time. -/
inductive Grouping (α : Type) where
  | one (a : Option (TapChanger α))
  | both (g h : Grouping α)

namespace Grouping

def operands : Grouping α → List (Option (TapChanger α))
  | one a => [a]
  | both g h => g.operands ++ h.operands

variable [Scalar α]

def result : Grouping α → Option (TapChanger α)
  | one a => a
  | both g h => combine g.result h.result

def issues : Grouping α → Diagnostics
  | one _ => []
  | both g h => g.issues ++ h.issues ++ conflicts g.result h.result

theorem regulates_result (g : Grouping α) :
    Regulates g.result ↔ ∃ a ∈ g.operands, Regulates a := by
  induction g with
  | one a => simp [result, operands]
  | both g h hg hh =>
    rw [result, regulates_combine, hg, hh]
    simp only [operands, List.mem_append, or_and_right, exists_or]

/-- There is a conflict for each tap changer that regulates but one. -/
theorem conflictCount_issues (g : Grouping α) :
    g.issues.conflictCount = g.operands.countP (fun a => Regulates a) - 1 := by
  have hpos (g : Grouping α) :
      Regulates g.result ↔ 0 < g.operands.countP (fun a => Regulates a) := by
    simp only [regulates_result, List.countP_pos_iff, decide_eq_true_eq]
  induction g with
  | one a =>
    have hle : [a].countP (fun a => Regulates a) ≤ 1 := List.countP_le_length
    rw [operands, Nat.sub_eq_zero_of_le hle]
    rfl
  | both g h hg hh =>
    rw [issues, Diagnostics.conflictCount_append, Diagnostics.conflictCount_append, hg, hh,
      conflictCount_conflicts, operands, List.countP_append]
    -- two parts in which something regulates are one more conflict
    simp only [hpos]
    split_ifs <;> omega

theorem combine_result (g : Grouping ℝ) (a : Option (TapChanger ℝ)) :
    combine g.result a = g.operands.foldr combine a := by
  induction g generalizing a with
  | one b => rfl
  | both g h hg hh => rw [result, combine_assoc, hg, hh, operands, List.foldr_append]

theorem result_eq (g : Grouping ℝ) : g.result = g.operands.foldr combine none := by
  rw [← combine_result, combine_none]

/-- Combining has a neutral operand and, without rounding, is associative. Both groupings of three
tap changers report a conflict for each that regulates but one, and so does every grouping of
however many. -/
theorem combine_any_grouping :
    (∀ a : Option (TapChanger ℝ),
      combine a none = a ∧ combine none a = a ∧ conflicts a none = [] ∧ conflicts none a = []) ∧
    (∀ a b c : Option (TapChanger ℝ),
      combine (combine a b) c = combine a (combine b c) ∧
      (conflicts a b ++ conflicts (combine a b) c).conflictCount =
        [a, b, c].countP (fun a => Regulates a) - 1 ∧
      (conflicts b c ++ conflicts a (combine b c)).conflictCount =
        [a, b, c].countP (fun a => Regulates a) - 1) ∧
    ∀ g : Grouping ℝ, g.result = g.operands.foldr combine none ∧
      g.issues.conflictCount = g.operands.countP (fun a => Regulates a) - 1 := by
  refine ⟨fun a => ⟨combine_none a, none_combine a, conflicts_none a, rfl⟩, fun a b c => ?_,
    fun g => ⟨g.result_eq, g.conflictCount_issues⟩⟩
  have hleft := conflictCount_issues (both (both (one a) (one b)) (one c))
  have hright := conflictCount_issues (both (one a) (both (one b) (one c)))
  simp only [issues, List.append_nil, List.nil_append] at hleft hright
  exact ⟨combine_assoc a b c, hleft, hright⟩

end Grouping

end EquivalentCircuit
