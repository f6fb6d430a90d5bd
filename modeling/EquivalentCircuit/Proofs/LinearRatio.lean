import Mathlib.Tactic.Linarith
import EquivalentCircuit.Proofs.ExactScalar
import EquivalentCircuit.Proofs.TableAdmission

/-! Linear ratio tables in exact arithmetic. The ratio is affine in the distance from the neutral
position, so it is above zero at every position if it is so at both ends of the table, and it rises
or falls over the whole table as the increment says. -/

namespace EquivalentCircuit

namespace StepRange

variable {r : StepRange}

theorem mem_distances {n : ℤ} :
    n ∈ r.distances ↔
      r.low.toInt - r.neutral.toInt ≤ n ∧ n ≤ r.high.toInt - r.neutral.toInt := by
  simp only [distances, count, List.mem_map, List.mem_range]
  constructor
  · rintro ⟨i, hi, rfl⟩
    omega
  · rintro ⟨hlow, hhigh⟩
    exact ⟨(n - (r.low.toInt - r.neutral.toInt)).toNat, by omega, by omega⟩

theorem pairwise_distances (r : StepRange) : r.distances.Pairwise (· < ·) := by
  rw [distances, List.pairwise_map]
  exact List.pairwise_lt_range.imp fun h => by omega

/-- Both ends of a valid range are among its positions. -/
theorem Valid.mem_ends (h : r.Valid) :
    r.low.toInt - r.neutral.toInt ∈ r.distances ∧
      r.high.toInt - r.neutral.toInt ∈ r.distances := by
  have hle := Int32.le_iff_toInt_le.1 h.low_le_high
  exact ⟨mem_distances.2 (by omega), mem_distances.2 (by omega)⟩

end StepRange

/-! The ratio as a function of the distance. -/

namespace TapStep

variable {du : ℝ} {m n k : ℤ}

theorem rho_linearRatio (du : ℝ) (n : ℤ) : (linearRatio du n).rho = 1 + n * du / 100 := by
  change (1 : ℝ) + n * du / ((100 : ℤ) : ℝ) = _
  norm_num

theorem sound_linearRatio : (linearRatio du n).Sound ↔ 0 < 1 + n * du / 100 := by
  rw [← rho_linearRatio]
  constructor
  · intro h
    simpa using h.rho_positive
  · intro h
    exact ⟨rfl, by simpa using h, rfl, rfl, rfl, rfl, rfl⟩

/-- An affine function above zero at two points is so between them. -/
theorem rho_pos_of_ends (hmn : m ≤ n) (hnk : n ≤ k) (hm : 0 < 1 + m * du / 100)
    (hk : 0 < 1 + k * du / 100) : 0 < 1 + n * du / 100 := by
  have hmn' : (m : ℝ) ≤ n := by exact_mod_cast hmn
  have hnk' : (n : ℝ) ≤ k := by exact_mod_cast hnk
  rcases le_total 0 du with hdu | hdu
  · have := mul_le_mul_of_nonneg_right hmn' hdu
    linarith
  · have := mul_le_mul_of_nonpos_right hnk' hdu
    linarith

theorem rho_lt_iff :
    (linearRatio du m).rho < (linearRatio du n).rho ↔ 0 < ((n : ℝ) - m) * du := by
  rw [rho_linearRatio, rho_linearRatio, add_lt_add_iff_left,
    div_lt_div_iff_of_pos_right (by norm_num), ← sub_pos, ← sub_mul]

end TapStep

namespace TapChanger

variable {du : ℝ} {t : TapChanger ℝ}

def ratios (t : TapChanger ℝ) : List ℝ := t.steps.map (·.rho)

/-- The ratios are above zero, one at the neutral position, and follow the sign of an increment. -/
structure Graded (du : ℝ) (t : TapChanger ℝ) : Prop where
  rising : 0 < du → t.ratios.Pairwise (· < ·)
  falling : du < 0 → t.ratios.Pairwise (· > ·)
  level : du = 0 → ∀ rho ∈ t.ratios, rho = 1
  neutral : ∃ s, t.neutral? = some s ∧ s.rho = 1
  pos : ∀ rho ∈ t.ratios, 0 < rho

theorem ratios_relocate (t : TapChanger ℝ) :
    t.relocate.ratios = t.ratios.map fun rho => 1 / rho := by
  simp only [ratios, relocate, List.map_map]
  rfl

/-- Reciprocals of numbers above zero stand in the opposite order. -/
theorem Graded.relocate (h : t.Graded du) : t.relocate.Graded (-du) := by
  refine ⟨fun hdu => ?_, fun hdu => ?_, fun hdu => ?_, ?_, ?_⟩
  · rw [ratios_relocate, List.pairwise_map]
    refine (h.falling (neg_pos.1 hdu)).imp_of_mem fun ha hb hab => ?_
    exact one_div_lt_one_div_of_lt (h.pos _ hb) hab
  · rw [ratios_relocate, List.pairwise_map]
    refine (h.rising (neg_neg_iff_pos.1 hdu)).imp_of_mem fun ha hb hab => ?_
    exact one_div_lt_one_div_of_lt (h.pos _ ha) hab
  · rw [ratios_relocate, List.forall_mem_map]
    intro rho hrho
    rw [h.level (neg_eq_zero.1 hdu) rho hrho, one_div_one]
  · obtain ⟨s, hs, hone⟩ := h.neutral
    refine ⟨s.relocate, ?_, ?_⟩
    · rw [neutral?] at hs
      rw [neutral?, TapChanger.relocate, List.getElem?_map, hs, Option.map_some]
    · rw [TapStep.relocate, hone]
      exact one_div_one
  · rw [ratios_relocate, List.forall_mem_map]
    exact fun rho hrho => one_div_pos.2 (h.pos rho hrho)

end TapChanger

namespace TapChangerSpec

variable {id : String} {r : StepRange} {du : ℝ} {tap : Option Int32}
  {regulation : Option (Regulation ℝ)}

theorem stands_linearRatio (hr : r.Valid) (htap : ∀ p ∈ tap, r.low ≤ p ∧ p ≤ r.high) :
    Stands (⟨id, .linearRatio r du, tap, regulation⟩ : TapChangerSpec ℝ) := by
  refine ⟨⟨?_, nofun⟩, fun p hp => ?_⟩
  · rintro g ⟨⟩
    exact hr
  · obtain ⟨hlow, hhigh⟩ := htap p hp
    exact ⟨Int32.le_iff_toInt_le.1 hlow, Int32.le_iff_toInt_le.1 hhigh⟩

theorem graded_of_build_linearRatio {t : TapChanger ℝ}
    (h : TapChangerSpec.build ⟨id, .linearRatio r du, tap, regulation⟩ = .ok t) :
    t.Graded du := by
  obtain ⟨hsound, -, hd⟩ := built_iff.1 h
  have hsteps : t.steps = r.distances.map (.linearRatio du) := hd.steps
  have hratios : t.ratios = r.distances.map fun n => (TapStep.linearRatio du n).rho := by
    rw [TapChanger.ratios, hsteps, List.map_map]
    rfl
  refine ⟨fun hdu => ?_, fun hdu => ?_, fun hdu => ?_, ?_, ?_⟩
  · rw [hratios, List.pairwise_map]
    refine r.pairwise_distances.imp fun hmn => TapStep.rho_lt_iff.2 ?_
    exact mul_pos (sub_pos.2 (Int.cast_lt.2 hmn)) hdu
  · rw [hratios, List.pairwise_map]
    refine r.pairwise_distances.imp fun hmn => TapStep.rho_lt_iff.2 ?_
    exact mul_pos_of_neg_of_neg (sub_neg.2 (Int.cast_lt.2 hmn)) hdu
  · rw [hratios, List.forall_mem_map]
    intro n _
    rw [TapStep.rho_linearRatio, hdu, mul_zero, zero_div, add_zero]
  · have hneutral : (t.neutralStep : ℤ) = r.neutral.toInt - r.low.toInt := hd.neutral
    have hlt : t.neutralStep < r.distances.length := by
      simpa only [hsteps, List.length_map] using hsound.neutral_lt
    refine ⟨TapStep.linearRatio du 0, ?_, ?_⟩
    · rw [TapChanger.neutral?, hsteps, List.getElem?_map, StepRange.getElem?_distances hlt,
        Option.map_some, hneutral]
      congr 2
      omega
    · rw [TapStep.rho_linearRatio, Int.cast_zero, zero_mul, zero_div, add_zero]
  · rw [TapChanger.ratios, List.forall_mem_map]
    exact fun s hs => by simpa using (hsound.steps s hs).rho_positive

/-- A linear ratio table is built exactly if the ratios at its two ends are above zero. What is
built has ratios that run with the increment, and against it once it is moved to the other end. -/
theorem build_linearRatio_decided (hlow : r.low ≤ r.neutral) (hhigh : r.neutral ≤ r.high)
    (hcount : r.high.toInt - r.low.toInt + 1 ≤ 1024)
    (htap : ∀ p ∈ tap, r.low ≤ p ∧ p ≤ r.high) :
    let s : TapChangerSpec ℝ := ⟨id, .linearRatio r du, tap, regulation⟩
    ((∃ t, s.build = .ok t) ↔
        0 < 1 + ((r.low.toInt - r.neutral.toInt : ℤ) : ℝ) * du / 100 ∧
          0 < 1 + ((r.high.toInt - r.neutral.toInt : ℤ) : ℝ) * du / 100) ∧
      ∀ t, s.build = .ok t → t.Graded du ∧ t.relocate.Graded (-du) := by
  intro s
  have hr : r.Valid := ⟨Int32.le_trans hlow hhigh, hcount, hlow, hhigh⟩
  refine ⟨?_, fun t ht => ?_⟩
  · have hsteps : s.table.steps = r.distances.map (.linearRatio du) := rfl
    rw [exists_build_eq_ok, and_iff_right (stands_linearRatio hr htap), hsteps,
      List.forall_mem_map]
    simp only [TapStep.sound_linearRatio]
    constructor
    · exact fun h => ⟨h _ hr.mem_ends.1, h _ hr.mem_ends.2⟩
    · rintro ⟨hl, hh⟩ n hn
      obtain ⟨hln, hnh⟩ := StepRange.mem_distances.1 hn
      exact TapStep.rho_pos_of_ends hln hnh hl hh
  · have hgraded := graded_of_build_linearRatio ht
    exact ⟨hgraded, hgraded.relocate⟩

/-- Seventeen positions with a falling ratio, the neutral one in the middle. -/
theorem build_linearRatio_decided_falling :
    let range : StepRange := ⟨1, 17, 9⟩
    let s : TapChangerSpec ℝ := ⟨"T", .linearRatio range (-5 / 4), some 3, none⟩
    (range.low ≤ range.neutral ∧ range.neutral ≤ range.high) ∧
      range.high.toInt - range.low.toInt + 1 ≤ 1024 ∧
      (∀ p ∈ s.tapPosition, range.low ≤ p ∧ p ≤ range.high) ∧
      ∃ t, s.build = .ok t ∧ t.Graded (-5 / 4) ∧ t.relocate.Graded (5 / 4) := by
  intro range s
  have hpositions : range.low ≤ range.neutral ∧ range.neutral ≤ range.high := by decide
  have hcount : range.high.toInt - range.low.toInt + 1 ≤ 1024 := by decide
  have htap : ∀ p ∈ s.tapPosition, range.low ≤ p ∧ p ≤ range.high := by
    rintro p ⟨⟩
    decide
  have hends : range.low.toInt - range.neutral.toInt = -8 ∧
      range.high.toInt - range.neutral.toInt = 8 := by decide
  obtain ⟨hbuilt, hgraded⟩ := @build_linearRatio_decided "T" range (-5 / 4) (some 3) none
    hpositions.1 hpositions.2 hcount htap
  obtain ⟨t, ht⟩ := hbuilt.2 (by rw [hends.1, hends.2]; norm_num)
  obtain ⟨h, hmoved⟩ := hgraded t ht
  refine ⟨hpositions, hcount, htap, t, ht, h, ?_⟩
  rwa [show -(-5 / 4 : ℝ) = 5 / 4 by norm_num] at hmoved

end TapChangerSpec

end EquivalentCircuit
