import EquivalentCircuit.Proofs.ExactScalar
import EquivalentCircuit.Proofs.Frozen
import EquivalentCircuit.Proofs.LastPosition

/-! What the combination of two tap changers is as a table: a row for each step of the first, a
column for each step of the second, written row after row. Nothing checks this table, and it may be
larger than any that is accepted; that its indices stay inside and its positions in range follows
from the two operands having been checked. -/

namespace EquivalentCircuit

/-- The quantity of an end that a deviation of a step is about. -/
inductive Deviation where
  | resistance
  | reactance
  | conductance
  | susceptance
deriving DecidableEq

namespace TapStep

def deviation {α : Type} (s : TapStep α) : Deviation → α
  | .resistance => s.rdr
  | .reactance => s.rdx
  | .conductance => s.rdg
  | .susceptance => s.rdb

/-- `u` does what `s` and `t` do together. -/
structure Composed {α : Type} [Scalar α] (s t u : TapStep α) : Prop where
  rho : u.rho = s.rho * t.rho
  angle : u.angle = s.angle + t.angle
  deviation : ∀ d, u.deviation d = s.deviation d + t.deviation d + s.deviation d * t.deviation d

/-- `u` lets each quantity grow as `s` and then `t` do. -/
def Grows (s t u : TapStep ℝ) : Prop :=
  ∀ d, 1 + u.deviation d = (1 + s.deviation d) * (1 + t.deviation d)

theorem composed_compose {α : Type} [Scalar α] (s t : TapStep α) : s.Composed t (s.compose t) where
  rho := rfl
  angle := rfl
  deviation d := by cases d <;> rfl

theorem grows_compose (s t : TapStep ℝ) : s.Grows t (s.compose t) := by
  intro d
  rw [(composed_compose s t).deviation]
  change 1 + (s.deviation d + t.deviation d + s.deviation d * t.deviation d) = _
  ring

end TapStep

namespace TapChanger

variable {α : Type} {R : TapStep α → TapStep α → TapStep α → Prop} {a b c : TapChanger α}

/-- `c` has a step for each pair of steps of `a` and `b`, the index into `b` running fastest, and
`R s t u` says that `u` is the step for `s` and `t`. Its positions are those of both, and the
integers it is numbered with are positions. -/
structure RowMajor (R : TapStep α → TapStep α → TapStep α → Prop) (a b c : TapChanger α) :
    Prop where
  length : c.steps.length = a.steps.length * b.steps.length
  step : ∀ (i j : Nat) (hi : i < a.steps.length) (hj : j < b.steps.length),
    ∃ u, c.steps[i * b.steps.length + j]? = some u ∧ R a.steps[i] b.steps[j] u
  index_lt : ∀ w, c.indexOf w < c.steps.length
  position : ∀ w, ∃ s t u, a.at? w = some s ∧ b.at? w = some t ∧ c.at? w = some u ∧ R s t u
  numbered : c.lowTapPosition.toInt + c.neutralStep = 0
  neutral_fits : position? c.neutralStep = some (Int32.ofNat c.neutralStep)
  low_fits : position? (-c.neutralStep) = some (-Int32.ofNat c.neutralStep)
  last_fits : ∃ p, position? c.lastPosition = some p ∧ c.highTapPosition? = some p

variable [Scalar α]

theorem rowMajor_product (hR : ∀ s t, R s t (s.compose t)) (ha : a.Sound) (hb : b.Sound) :
    RowMajor R a b (product a b) := by
  have hwithin := (Within.of_sound ha).product (Within.of_sound hb)
  have hlow := toInt_lowTapPosition_product ha hb
  -- an index below the square of the limit is far from both ends of the positions
  have hneutral : (product a b).neutralStep < maxTapSteps * maxTapSteps :=
    Nat.lt_of_lt_of_le (hwithin.index_lt .neutral) hwithin.length_le
  rw [maxTapSteps] at hneutral
  refine
    { length := Within.length_product a b
      step := fun i j hi hj => ?_
      index_lt := hwithin.index_lt
      position := fun w => ?_
      numbered := by omega
      neutral_fits := position?_eq_some.2 (Int32.toInt_ofNat_of_lt (by omega))
      low_fits := position?_eq_some.2 hlow
      last_fits := ?_ }
  · exact ⟨_, getElem?_flatMap_map TapStep.compose (List.getElem?_eq_getElem hi)
      (List.getElem?_eq_getElem hj), hR _ _⟩
  · obtain ⟨s, -, hs⟩ := at?_of_sound w ha
    obtain ⟨t, -, ht⟩ := at?_of_sound w hb
    exact ⟨s, t, _, hs, ht, at?_product hs ht, hR s t⟩
  · obtain ⟨p, hp, hlast⟩ := highTapPosition?_product ha hb
    exact ⟨p, position?_eq_some.2 hlast, hp⟩

/-- Two checked tap changers combine to the product of their tables, each step with the ratio, the
angle and the deviations of its pair. Without rounding growths multiply. -/
theorem combine_rowMajor :
    (∀ a b : TapChanger α, a.check = .ok () → b.check = .ok () →
      ∃ c, combine (some a) (some b) = some c ∧ RowMajor TapStep.Composed a b c) ∧
    ∀ a b : TapChanger ℝ, a.check = .ok () → b.check = .ok () →
      ∃ c, combine (some a) (some b) = some c ∧ RowMajor TapStep.Grows a b c := by
  constructor
  · intro a b ha hb
    exact ⟨_, rfl,
      rowMajor_product TapStep.composed_compose (check_eq_ok.1 ha) (check_eq_ok.1 hb)⟩
  · intro a b ha hb
    exact ⟨_, rfl,
      rowMajor_product TapStep.grows_compose (check_eq_ok.1 ha) (check_eq_ok.1 hb)⟩

/-- Two full tables that stand at their last steps, and two of one step without rounding. -/
theorem combine_rowMajor_full :
    let full : TapChanger Float :=
      ⟨"full", -512, List.replicate 1024 (.plain 1.01 ⟨0.5⟩), 1023, 1023, none⟩
    let s : TapStep ℝ := ⟨1, ⟨10⟩, 1 / 10, 1 / 5, 0, -1 / 10⟩
    let t : TapStep ℝ := ⟨1, ⟨-4⟩, 1 / 10, -1 / 2, 3 / 10, 0⟩
    (∃ c u, combine (some full) (some full) = some c ∧ c.steps.length = 1048576 ∧
      c.steps[1023 * 1024 + 1023]? = some u ∧ u.rho = 1.01 * 1.01 ∧ u.angle = ⟨0.5⟩ + ⟨0.5⟩ ∧
      c.neutralStep < c.steps.length ∧ c.lowTapPosition.toInt + c.neutralStep = 0 ∧
      ∃ p, position? c.lastPosition = some p ∧ c.highTapPosition? = some p) ∧
    ∃ c u, combine (some ⟨"a", 0, [s], 0, 0, none⟩) (some ⟨"b", 0, [t], 0, 0, none⟩) = some c ∧
      c.current? = some u ∧ 1 + u.rdr = 121 / 100 ∧ 1 + u.rdx = 3 / 5 := by
  intro full s t
  constructor
  · have hfull : full.check = .ok () := Checked.eq_ok_of_isOk (by decide +kernel)
    have hlength : full.steps.length = 1024 := List.length_replicate
    obtain ⟨c, hc, h⟩ := combine_rowMajor.1 full full hfull hfull
    obtain ⟨u, hu, hcomposed⟩ := h.step 1023 1023 (by omega) (by omega)
    rw [hlength] at hu
    refine ⟨c, u, hc, ?_, hu, ?_, ?_, h.index_lt .neutral, h.numbered, h.last_fits⟩
    · rw [h.length, hlength]
    · rw [hcomposed.rho, List.getElem_replicate]
      rfl
    · rw [hcomposed.angle, List.getElem_replicate]
      rfl
  · have hsound (name : String) {v : TapStep ℝ} (hv : 0 < v.rho) :
        check ⟨name, 0, [v], 0, 0, none⟩ = .ok () :=
      check_eq_ok.2 (sound_of_singleton rfl rfl rfl
        ⟨rfl, by simpa using hv, rfl, rfl, rfl, rfl, rfl⟩)
    have ha := hsound "a" (v := s) (by norm_num [s])
    have hb := hsound "b" (v := t) (by norm_num [t])
    obtain ⟨c, hc, h⟩ := combine_rowMajor (α := ℝ).2 _ _ ha hb
    obtain ⟨_, _, u, ⟨⟩, ⟨⟩, hu, hgrows⟩ := h.position .current
    refine ⟨c, u, hc, hu, (hgrows .resistance).trans ?_, (hgrows .reactance).trans ?_⟩
    · norm_num [TapStep.deviation, s, t]
    · norm_num [TapStep.deviation, s, t]

end TapChanger

end EquivalentCircuit
