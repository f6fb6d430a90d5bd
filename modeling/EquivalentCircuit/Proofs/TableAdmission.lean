import EquivalentCircuit.Proofs.Admission
import EquivalentCircuit.Proofs.TapTables

/-! Which specifications of tap changers are built. Three checks follow on one another: that of the
positions of a generated table, that of the neutral and the tap position, and that of the tap
changer. What they let through together is said once: the table has a size and an end that tap
changers may have, both positions stand in it, and each of its steps is a proper one. -/

namespace EquivalentCircuit

variable {α : Type}

namespace TapTable

/-- The position of the last step as an unbounded integer. -/
def last : TapTable α → Int
  | explicit low _ steps => low.toInt + steps.length - 1
  | linearRatio r _ | linearPhase r _ | symmetricalPhase r _ | asymmetricalPhase r _ _ =>
    r.high.toInt

variable [Scalar α]

structure Valid (t : TapTable α) : Prop where
  generated : ∀ g, t.formula? = some g → g.range.Valid
  explicit : ∀ low neutral steps, t = .explicit low neutral steps →
    (1 ≤ steps.length ∧ steps.length ≤ 1024) ∧ low.toInt + steps.length - 1 ≤ 2147483647 ∧
      low.toInt ≤ neutral.toInt ∧ neutral.toInt ≤ low.toInt + steps.length - 1

/-- What the later checks ask of the positions, whatever the kind of the table. -/
structure Spans (t : TapTable α) : Prop where
  length_pos : 1 ≤ t.steps.length
  length_le : t.steps.length ≤ 1024
  last_le : t.low.toInt + t.steps.length - 1 ≤ 2147483647
  low_le_neutral : t.low.toInt ≤ t.neutral.toInt
  neutral_le_last : t.neutral.toInt ≤ t.low.toInt + t.steps.length - 1

variable {t : TapTable α} {g : Formula α}

theorem last_of_formula? (h : t.formula? = some g) : t.last = g.range.high.toInt := by
  cases t <;> cases h <;> rfl

theorem last_of_range (h : t.formula? = some g) (hv : g.range.Valid) :
    t.last = t.low.toInt + t.steps.length - 1 := by
  have hf := follows h
  have hlength := (Formula.lists hv).length_eq
  rw [← hf.steps] at hlength
  rw [last_of_formula? h, hf.low]
  omega

theorem Valid.last_eq (h : t.Valid) : t.last = t.low.toInt + t.steps.length - 1 := by
  rcases t.kinds with ⟨low, neutral, steps, rfl⟩ | ⟨g, hg⟩
  · rfl
  · exact last_of_range hg (h.generated g hg)

/-- The positions of a generated table pass the later checks if they have passed the first. -/
theorem spans_of_range (h : t.formula? = some g) (hv : g.range.Valid) : t.Spans := by
  have hf := follows h
  have hlists := Formula.lists hv
  rw [← hf.steps] at hlists
  have hhigh := last_of_formula? h
  have hlast := last_of_range h hv
  have hlow := Int32.le_iff_toInt_le.1 hv.low_le_neutral
  have hneutral := Int32.le_iff_toInt_le.1 hv.neutral_le_high
  have hmax := Int32.toInt_le g.range.high
  rw [Int32.toInt_maxValue] at hmax
  refine ⟨hlists.length_pos, hlists.length_le, by omega, ?_, ?_⟩
  · rw [hf.low, hf.neutral]
    exact hlow
  · rw [hf.neutral]
    omega

theorem valid_iff : t.Valid ↔ (∀ g, t.formula? = some g → g.range.Valid) ∧ t.Spans := by
  constructor
  · intro h
    refine ⟨h.generated, ?_⟩
    rcases t.kinds with ⟨low, neutral, steps, rfl⟩ | ⟨g, hg⟩
    · obtain ⟨⟨hpos, hle⟩, hlast, hlow, hneutral⟩ := h.explicit _ _ _ rfl
      exact ⟨hpos, hle, hlast, hlow, hneutral⟩
    · exact spans_of_range hg (h.generated g hg)
  · rintro ⟨hg, h⟩
    refine ⟨hg, ?_⟩
    rintro low neutral steps rfl
    exact ⟨⟨h.length_pos, h.length_le⟩, h.last_le, h.low_le_neutral, h.neutral_le_last⟩

end TapTable

namespace TapChangerSpec

variable [Scalar α] {s : TapChangerSpec α} {t : TapChanger α}

/-- What is asked of the positions of a tap changer. -/
structure Stands (s : TapChangerSpec α) : Prop where
  table : s.table.Valid
  tap : ∀ p, s.tapPosition = some p → s.table.low.toInt ≤ p.toInt ∧ p.toInt ≤ s.table.last

/-- Without a position of its own it stands at the neutral one, which is in the table as well. -/
theorem Stands.current (h : s.Stands) :
    s.table.low.toInt ≤ (s.tapPosition.getD s.table.neutral).toInt ∧
      (s.tapPosition.getD s.table.neutral).toInt ≤ s.table.last := by
  cases hp : s.tapPosition with
  | some p => exact h.tap p hp
  | none =>
    have hspans := (TapTable.valid_iff.1 h.table).2
    rw [h.table.last_eq]
    exact ⟨hspans.low_le_neutral, hspans.neutral_le_last⟩

/-- The tap changer that a specification describes, before it is checked. -/
def described (s : TapChangerSpec α) : TapChanger α where
  id := s.id
  lowTapPosition := s.table.low
  steps := s.table.steps
  neutralStep := (s.table.neutral.toInt - s.table.low.toInt).toNat
  tapPosition := ((s.tapPosition.getD s.table.neutral).toInt - s.table.low.toInt).toNat
  regulation := s.regulation

theorem stands_of_build (h : s.build = .ok t) : s.Stands := by
  obtain ⟨hsound, hvalid, hd⟩ := built_iff.1 h
  obtain ⟨hnonempty, hlength, hlast, hneutralLt, htapLt, -⟩ := hsound
  obtain ⟨hlow, hneutral, htap, -, -, -⟩ := places_of_build h
  have hsteps : t.steps = s.table.steps := hd.steps
  have hpos := List.length_pos_iff.2 hnonempty
  rw [TapChanger.lastPosition, hlow, hsteps, Int32.toInt_maxValue] at hlast
  rw [hsteps] at hpos hlength hneutralLt htapLt
  rw [hlow] at hneutral htap
  have hspans : s.table.Spans := ⟨hpos, hlength, hlast, by omega, by omega⟩
  have htable : s.table.Valid := TapTable.valid_iff.2 ⟨hvalid, hspans⟩
  refine ⟨htable, fun p hp => ?_⟩
  rw [hp, Option.getD_some] at htap
  rw [htable.last_eq]
  omega

theorem Stands.build (h : s.Stands) (hsteps : ∀ step ∈ s.table.steps, step.Sound) :
    s.build = .ok s.described := by
  obtain ⟨hvalid, hspans⟩ := TapTable.valid_iff.1 h.table
  obtain ⟨hpos, hle, hlast, hlow, hneutral⟩ := hspans
  obtain ⟨htap, htap'⟩ := h.current
  rw [h.table.last_eq] at htap'
  refine built_iff.2 ⟨⟨?_, hle, ?_, ?_, ?_, hsteps⟩, hvalid, ⟨rfl, rfl, rfl, ?_, ?_, rfl⟩⟩
  · exact List.length_pos_iff.1 hpos
  · rw [TapChanger.lastPosition, Int32.toInt_maxValue]
    exact hlast
  · change (s.table.neutral.toInt - s.table.low.toInt).toNat < s.table.steps.length
    omega
  · change ((s.tapPosition.getD s.table.neutral).toInt - s.table.low.toInt).toNat <
      s.table.steps.length
    omega
  · exact Int.toNat_of_nonneg (by omega)
  · exact Int.toNat_of_nonneg (by omega)

theorem exists_build_eq_ok :
    (∃ t, s.build = .ok t) ↔ s.Stands ∧ ∀ step ∈ s.table.steps, step.Sound := by
  constructor
  · rintro ⟨t, ht⟩
    obtain ⟨hsound, -, hd⟩ := built_iff.1 ht
    refine ⟨stands_of_build ht, fun step hstep => hsound.steps step ?_⟩
    rw [hd.steps]
    exact hstep
  · rintro ⟨h, hsteps⟩
    exact ⟨_, h.build hsteps⟩

theorem entity_of_build {m : Malformed α} (h : s.build = .error m) : m.entity = s.id := by
  rw [build_eq] at h
  rcases Checked.bind_eq_error.1 h with h | ⟨table, -, h⟩
  · exact TapTable.entity_of_resolve h
  rcases Checked.bind_eq_error.1 h with h | ⟨neutral, -, h⟩
  · exact StepTable.entity_of_indexOf h
  rcases Checked.bind_eq_error.1 h with h | ⟨tap, -, h⟩
  · exact entity_of_currentIndex h
  rcases Checked.bind_eq_error.1 h with h | ⟨_, -, h⟩
  · exact TapChanger.entity_of_check h
  · cases h

end TapChangerSpec

structure TapStep.IsProper (s : TapStep Float) : Prop where
  rho_finite : s.rho.isFinite = true
  rho_pos : 0 < s.rho
  angle : s.angle.value.isFinite = true
  rdr : s.rdr.isFinite = true
  rdx : s.rdx.isFinite = true
  rdg : s.rdg.isFinite = true
  rdb : s.rdb.isFinite = true

theorem TapStep.sound_iff_isProper {s : TapStep Float} : s.Sound ↔ s.IsProper :=
  ⟨fun h => ⟨h.rho_finite, (isPositive_iff_lt h.rho_finite).1 h.rho_positive, h.angle, h.rdr,
      h.rdx, h.rdg, h.rdb⟩,
    fun h => ⟨h.rho_finite, (isPositive_iff_lt h.rho_finite).2 h.rho_pos, h.angle, h.rdr, h.rdx,
      h.rdg, h.rdb⟩⟩

namespace TapChangerSpec

/-- A specification is built exactly if its positions fit together and its steps are proper; else
the tap changer is named, and what is built passes its check again. -/
theorem build_decided (s : TapChangerSpec Float) :
    ((∃ t, s.build = .ok t) ↔ s.Stands ∧ ∀ step ∈ s.table.steps, step.IsProper) ∧
      (∀ m, s.build = .error m → m.entity = s.id) ∧ ∀ t, s.build = .ok t → t.check = .ok () := by
  refine ⟨?_, fun m => entity_of_build, fun t ht => TapChanger.check_eq_ok.2 (sound_of_build ht)⟩
  rw [exists_build_eq_ok]
  exact and_congr_right fun _ => forall₂_congr fun _ _ => TapStep.sound_iff_isProper

/-- A table listed up to the greatest position, and a generated one whose lowest ratio would be
negative: all positions of the latter fit together. -/
theorem build_decided_of_extremes :
    let top : TapChangerSpec Float :=
      ⟨"T", .explicit 2147483646 2147483647 [.plain 0.9 ⟨0⟩, .plain 1 ⟨30⟩], none, none⟩
    let negative : TapChangerSpec Float := ⟨"N", .linearRatio ⟨-120, 0, 0⟩ 1, some (-1), none⟩
    (∃ t, top.build = .ok t ∧ t.check = .ok ()) ∧ top.Stands ∧
      (∃ m, negative.build = .error m ∧ m.entity = "N") ∧
      ¬ ∀ step ∈ negative.table.steps, step.IsProper := by
  intro top negative
  obtain ⟨hbuilt, -, hcheck⟩ := build_decided top
  obtain ⟨hbuilt', hentity, -⟩ := build_decided negative
  obtain ⟨t, ht⟩ := Checked.exists_eq_ok (x := top.build) (by decide +kernel)
  have hfail : negative.build.isOk = false := by decide +kernel
  have hrange : StepRange.Valid ⟨-120, 0, 0⟩ := ⟨by decide, by decide, by decide, by decide⟩
  have hstands : negative.Stands := by
    refine ⟨⟨?_, nofun⟩, ?_⟩
    · rintro g ⟨⟩
      exact hrange
    · rintro p ⟨⟩
      exact ⟨by decide, by decide⟩
  refine ⟨⟨t, ht, hcheck t ht⟩, (hbuilt.1 ⟨t, ht⟩).1, ?_, fun hsteps => ?_⟩
  · cases hm : negative.build with
    | ok u =>
      rw [hm] at hfail
      cases hfail
    | error m => exact ⟨m, rfl, hentity m hm⟩
  · obtain ⟨u, hu⟩ := hbuilt'.2 ⟨hstands, hsteps⟩
    rw [hu] at hfail
    cases hfail

end TapChangerSpec

end EquivalentCircuit
