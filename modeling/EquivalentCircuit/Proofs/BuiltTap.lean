import EquivalentCircuit.Proofs.Acceptance

/-! What a specification of a tap changer is built into. The table is resolved, two positions are
turned into indices and the result is checked; since the check looks at the indices once more,
being built is the same as being sound and as described. Every fault on the way is that of the tap
changer itself. -/

namespace EquivalentCircuit

variable {α : Type}

namespace StepTable

variable {entity : String} {role : PositionRole} {position : Int32} {table : StepTable α}

theorem indexOf_eq_ok {n : Nat} :
    table.indexOf entity role position = .ok n ↔
      (n : Int) = position.toInt - table.low.toInt ∧ n < table.steps.length := by
  unfold indexOf
  dsimp only
  split_ifs with h
  · refine ⟨nofun, fun hn => ?_⟩
    omega
  · rw [Except.ok.injEq]
    omega

theorem entity_of_indexOf {m : Malformed α} (h : table.indexOf entity role position = .error m) :
    m.entity = entity := by
  unfold indexOf at h
  dsimp only at h
  split_ifs at h
  cases h
  rfl

end StepTable

variable [Scalar α]

theorem TapChanger.entity_of_check {t : TapChanger α} {m : Malformed α} (h : t.check = .error m) :
    m.entity = t.id := by
  unfold check at h
  split at h
  · cases h
    rfl
  · cases h

/-- A control is not part of what is checked. -/
theorem TapChanger.Sound.withoutControl_iff {t : TapChanger α} {r : Option (Regulation α)} :
    Sound { t with regulation := r } ↔ t.Sound :=
  ⟨fun h => ⟨h.nonempty, h.length_le, h.last_le, h.neutral_lt, h.tap_lt, h.steps⟩,
    fun h => ⟨h.nonempty, h.length_le, h.last_le, h.neutral_lt, h.tap_lt, h.steps⟩⟩

namespace TapChangerSpec

/-- The tap changer has the steps of the table, and all else as the specification says. -/
structure Describes (s : TapChangerSpec α) (table : StepTable α) (t : TapChanger α) : Prop where
  id : t.id = s.id
  low : t.lowTapPosition = table.low
  steps : t.steps = table.steps
  neutral : (t.neutralStep : Int) = table.neutral.toInt - table.low.toInt
  tap : (t.tapPosition : Int) = (s.tapPosition.getD table.neutral).toInt - table.low.toInt
  regulation : t.regulation = s.regulation

def currentIndex (s : TapChangerSpec α) (table : StepTable α) (neutral : Nat) : Checked α Nat :=
  match s.tapPosition with
  | some position => table.indexOf s.id .tap position
  | none => .ok neutral

variable {s : TapChangerSpec α} {table : StepTable α} {t : TapChanger α} {neutral tap : Nat}

omit [Scalar α] in
theorem currentIndex_eq_ok
    (h : (neutral : Int) = table.neutral.toInt - table.low.toInt ∧ neutral < table.steps.length) :
    s.currentIndex table neutral = .ok tap ↔
      (tap : Int) = (s.tapPosition.getD table.neutral).toInt - table.low.toInt ∧
        tap < table.steps.length := by
  unfold currentIndex
  cases s.tapPosition with
  | some position => exact StepTable.indexOf_eq_ok
  | none =>
    rw [Except.ok.injEq, Option.getD_none]
    omega

omit [Scalar α] in
theorem entity_of_currentIndex {m : Malformed α} (h : s.currentIndex table neutral = .error m) :
    m.entity = s.id := by
  unfold currentIndex at h
  cases hp : s.tapPosition with
  | some position =>
    rw [hp] at h
    exact StepTable.entity_of_indexOf h
  | none =>
    rw [hp] at h
    cases h

theorem build_eq (s : TapChangerSpec α) :
    s.build = s.table.resolve s.id >>= fun table =>
      table.indexOf s.id .neutral table.neutral >>= fun neutral =>
        s.currentIndex table neutral >>= fun tap =>
          TapChanger.check ⟨s.id, table.low, table.steps, neutral, tap, none⟩ >>= fun _ =>
            .ok ⟨s.id, table.low, table.steps, neutral, tap, s.regulation⟩ := by
  unfold build currentIndex TapChanger.ofSteps
  cases s.tapPosition <;> simp only [bind_assoc] <;> rfl

theorem build_eq_ok :
    s.build = .ok t ↔
      t.Sound ∧ ∃ table, s.table.resolve s.id = .ok table ∧ s.Describes table t := by
  rw [build_eq]
  simp only [Checked.bind_eq_ok, StepTable.indexOf_eq_ok]
  constructor
  · rintro ⟨table, htable, neutral, hneutral, tap, htap, ⟨⟩, hcheck, ht⟩
    cases ht
    rw [currentIndex_eq_ok hneutral] at htap
    rw [TapChanger.check_eq_ok] at hcheck
    exact ⟨TapChanger.Sound.withoutControl_iff.2 hcheck, table, htable,
      rfl, rfl, rfl, hneutral.1, htap.1, rfl⟩
  · rintro ⟨hsound, table, htable, h⟩
    have hneutral : (t.neutralStep : Int) = table.neutral.toInt - table.low.toInt ∧
        t.neutralStep < table.steps.length := ⟨h.neutral, h.steps ▸ hsound.neutral_lt⟩
    refine ⟨table, htable, t.neutralStep, hneutral, t.tapPosition,
      (currentIndex_eq_ok hneutral).2 ⟨h.tap, h.steps ▸ hsound.tap_lt⟩, (), ?_, ?_⟩
    · rw [TapChanger.check_eq_ok, ← h.id, ← h.low, ← h.steps]
      exact TapChanger.Sound.withoutControl_iff.2 hsound
    · rw [← h.id, ← h.low, ← h.steps, ← h.regulation]

theorem sound_of_build (h : s.build = .ok t) : t.Sound := (build_eq_ok.1 h).1

theorem build_of_resolve_error {m : Malformed α} (h : s.table.resolve s.id = .error m) :
    s.build = .error m := by
  rw [build_eq, h]
  rfl

end TapChangerSpec

end EquivalentCircuit
