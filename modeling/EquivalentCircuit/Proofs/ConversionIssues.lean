import EquivalentCircuit.Proofs.PolicyAxes
import EquivalentCircuit.Proofs.Product

/-! The issues of a conversion, one by one. Tap changers are combined where they are gathered and
again where they meet at end1, but two that both regulate meet only once, and neither the move nor
the flipped angles hide it; so what is reported can be read off the raw ends. -/

namespace EquivalentCircuit

variable {α : Type}

def Regulates (a : Option (TapChanger α)) : Prop := ∃ t ∈ a, ∃ r ∈ t.regulation, r.enabled = true

/-- `issue` is there exactly if `occurs`, and then it is a warning of the given condition on the
given entity. -/
structure Reports (issue : Option Issue) (condition : Condition) (entity : Option String)
    (occurs : Prop) : Prop where
  isSome_iff : issue.isSome = true ↔ occurs
  severity : ∀ i ∈ issue, i.severity = .warning
  condition : ∀ i ∈ issue, i.condition = condition
  entity : ∀ i ∈ issue, i.entity = entity

theorem Reports.none {condition : Condition} {entity : Option String} {occurs : Prop}
    (h : ¬ occurs) : Reports none condition entity occurs :=
  ⟨iff_of_false nofun h, nofun, nofun, nofun⟩

theorem Reports.warning {condition : Condition} {message entity : String} {occurs : Prop}
    (h : occurs) : Reports (some (.warning condition message entity)) condition entity occurs where
  isSome_iff := iff_of_true rfl h
  severity := by rintro _ ⟨⟩; rfl
  condition := by rintro _ ⟨⟩; rfl
  entity := by rintro _ ⟨⟩; rfl

/-- A warning under a condition. -/
theorem exists_reports_if (b : Bool) {condition : Condition} {message entity : String}
    {occurs : Prop} (h : b = true ↔ occurs) :
    ∃ issue : Option Issue,
      (if b then [.warning condition message entity] else []) = issue.toList ∧
        Reports issue condition entity occurs := by
  cases b with
  | false => exact ⟨none, rfl, .none fun hoccurs => nomatch h.2 hoccurs⟩
  | true => exact ⟨some _, rfl, .warning (h.1 rfl)⟩

theorem dropsClock_iff {clocks : Bool} {clock : UInt8} :
    (clocks && clock != 0) = true ↔ clocks = true ∧ clock ≠ 0 := by
  rw [Bool.and_eq_true, bne_iff_ne]

namespace TapChanger

theorem regulates_some {t : TapChanger α} : Regulates (some t) ↔ t.isRegulating = true := by
  rw [isRegulating, Option.any_eq_true]
  constructor
  · rintro ⟨_, ⟨⟩, h⟩
    exact h
  · exact fun h => ⟨t, rfl, h⟩

/-- At most one issue, which concerns the first of the two. -/
theorem exists_reports_conflicts (a b : Option (TapChanger α)) :
    ∃ issue, conflicts a b = issue.toList ∧
      Reports issue .conflictingRegulation (a.map (·.id)) (Regulates a ∧ Regulates b) := by
  cases a with
  | none => exact ⟨none, rfl, .none nofun⟩
  | some a =>
    cases b with
    | none => exact ⟨none, rfl, .none nofun⟩
    | some b =>
      rw [regulates_some, regulates_some, ← Bool.and_eq_true]
      exact exists_reports_if _ Iff.rfl

theorem conflicts_none (a : Option (TapChanger α)) : conflicts a none = [] := by
  cases a <;> rfl

/-- Steps are not looked at. -/
theorem conflicts_mapSteps (f : TapStep α → TapStep α) (a b : Option (TapChanger α)) :
    conflicts (a.map (mapSteps f)) (b.map (mapSteps f)) = conflicts a b := by
  cases a <;> cases b <;> rfl

variable [Scalar α]

theorem conflicts_relocate (a b : Option (TapChanger α)) :
    conflicts a (b.map relocate) = conflicts a b := by
  cases a <;> cases b <;> rfl

end TapChanger

open TapChanger (conflicts conflicts_none conflicts_relocate conflicts_mapSteps
  exists_reports_conflicts)

variable [Scalar α]

namespace TapSlots

variable (s : TapSlots α)

theorem moveConflicts_eq :
    s.moveConflicts = conflicts s.ratio1 s.ratio2 ++ conflicts s.phase1 s.phase2 := by
  rw [moveConflicts, conflicts_relocate, conflicts_relocate]

theorem moveConflicts_negatePhase : s.negatePhase.moveConflicts = s.moveConflicts := by
  have hphase := conflicts_mapSteps TapStep.negateAngle s.phase1 s.phase2
  rw [moveConflicts_eq, moveConflicts_eq, ← hphase]
  rfl

/-- Gathered tap changers meet no others. -/
theorem moveConflicts_gather (side : Side) : (s.gather side).moveConflicts = [] := by
  rw [moveConflicts_eq]
  cases side with
  | end1 => rw [gather, conflicts_none, conflicts_none, List.append_nil]
  | end2 => rfl

end TapSlots

namespace TwoWindingEnds

variable (t : TwoWindingEnds α) (p : TwoWindingPolicy)

theorem moveConflicts_placedSlots :
    (t.placedSlots p).moveConflicts =
      (t.slots.place (p.taps.target? t.reactanceFree1)).moveConflicts := by
  unfold placedSlots
  cases p.phaseNegate with
  | false => rfl
  | true => exact TapSlots.moveConflicts_negatePhase _

def End1First : Prop :=
  p.taps = .end1 ∨ p.taps = .ownEnd ∨ p.taps = .reactanceFree ∧ Scalar.isZero t.end1.x = true

instance : Decidable (t.End1First p) := by
  unfold End1First
  infer_instance

def firstEnd : WindingEnd α := if t.End1First p then t.end1 else t.end2

def secondEnd : WindingEnd α := if t.End1First p then t.end2 else t.end1

theorem end1First_iff : t.End1First p ↔ p.taps.target? t.reactanceFree1 ≠ some .end2 := by
  unfold End1First reactanceFree1
  cases p.taps with
  | end1 => simp [TapPlacement.target?]
  | end2 => simp [TapPlacement.target?]
  | ownEnd => simp [TapPlacement.target?]
  | reactanceFree => simp [TapPlacement.target?]

/-- Where tap changers meet goes with the end whose tap changers come first. -/
theorem placement_cases {motive : Option Side → WindingEnd α → WindingEnd α → Prop}
    (own : motive none t.end1 t.end2) (end1 : motive (some .end1) t.end1 t.end2)
    (end2 : motive (some .end2) t.end2 t.end1) :
    motive (p.taps.target? t.reactanceFree1) (t.firstEnd p) (t.secondEnd p) := by
  have horder := t.end1First_iff p
  rw [firstEnd, secondEnd]
  rcases htarget : p.taps.target? t.reactanceFree1 with - | - | -
  · rw [htarget] at horder
    rw [if_pos (horder.2 nofun), if_pos (horder.2 nofun)]
    exact own
  · rw [htarget] at horder
    rw [if_pos (horder.2 nofun), if_pos (horder.2 nofun)]
    exact end1
  · have hlast : ¬ t.End1First p := fun h => horder.1 h htarget
    rw [if_neg hlast, if_neg hlast]
    exact end2

theorem tapConflicts_eq :
    t.tapConflicts p =
      conflicts (t.firstEnd p).ratioTapChanger (t.secondEnd p).ratioTapChanger ++
        conflicts (t.firstEnd p).phaseTapChanger (t.secondEnd p).phaseTapChanger := by
  rw [tapConflicts, moveConflicts_placedSlots]
  have gathered (side : Side) : t.slots.placeConflicts (some side) ++
      (t.slots.place (some side)).moveConflicts = t.slots.gatherConflicts side := by
    rw [TapSlots.place, TapSlots.moveConflicts_gather, List.append_nil, TapSlots.placeConflicts]
  exact t.placement_cases p
    (motive := fun side first second => t.slots.placeConflicts side ++
        (t.slots.place side).moveConflicts =
      conflicts first.ratioTapChanger second.ratioTapChanger ++
        conflicts first.phaseTapChanger second.phaseTapChanger)
    t.slots.moveConflicts_eq (gathered .end1) (gathered .end2)

/-- That both regulate does not depend on their order. -/
theorem regulates_firstEnd_and_secondEnd (slot : WindingEnd α → Option (TapChanger α)) :
    Regulates (slot (t.firstEnd p)) ∧ Regulates (slot (t.secondEnd p)) ↔
      Regulates (slot t.end1) ∧ Regulates (slot t.end2) := by
  unfold firstEnd secondEnd
  split_ifs
  · rfl
  · exact and_comm

omit [Scalar α] in
theorem exists_reports_clockIssues (t : TwoWindingEnds α) (p : Policy) :
    ∃ issue, t.clockIssues p = issue.toList ∧
      Reports issue .unsupportedModeling t.id (p.clocks = true ∧ t.end1.clock ≠ 0) :=
  exists_reports_if _ dropsClock_iff

end TwoWindingEnds

omit [Scalar α] in
theorem ThreeWindingEnds.exists_reports_clockIssues (t : ThreeWindingEnds α) (p : Policy) :
    ∃ issue, t.clockIssues p = issue.toList ∧
      Reports issue .unsupportedModeling t.id (p.clocks = true ∧ t.windings.one.clock ≠ 0) :=
  exists_reports_if _ dropsClock_iff

namespace WindingEnd

variable (p : LegPolicy) (w : WindingEnd α)

/-- The tap changers of a leg are at one of its ends, so they meet no others. -/
theorem moveConflicts_legSlots : (w.legSlots p).moveConflicts = [] := by
  rw [TapSlots.moveConflicts_eq, legSlots]
  cases p.tapsAtNetworkSide with
  | false => rfl
  | true => rw [if_pos rfl, conflicts_none, conflicts_none, List.append_nil]

end WindingEnd

theorem ThreeWindingEnds.tapConflicts_eq_nil (t : ThreeWindingEnds α) (p : Policy) :
    t.tapConflicts p = [] :=
  List.flatMap_eq_nil_iff.2 fun _ _ => WindingEnd.moveConflicts_legSlots _ _

/-- What a conversion reports, in order and with nothing else: a clock that the model has no place
for, then a conflict of the ratio and one of the phase tap changers, each on the tap changer that
the policy puts first. Legs of three-winding transformers have no conflicts. -/
theorem convert_issues (p : Policy) :
    (∀ (t : TwoWindingEnds α) (c : Conversion α (TwoWindingModel α)), t.convert p = .ok c →
      ∃ clock ratio phase : Option Issue,
        c.diagnostics = clock.toList ++ ratio.toList ++ phase.toList ∧
        Reports clock .unsupportedModeling t.id (p.clocks = true ∧ t.end1.clock ≠ 0) ∧
        Reports ratio .conflictingRegulation
          ((t.firstEnd p.twoWinding).ratioTapChanger.map (·.id))
          (Regulates t.end1.ratioTapChanger ∧ Regulates t.end2.ratioTapChanger) ∧
        Reports phase .conflictingRegulation
          ((t.firstEnd p.twoWinding).phaseTapChanger.map (·.id))
          (Regulates t.end1.phaseTapChanger ∧ Regulates t.end2.phaseTapChanger)) ∧
    ∀ (t : ThreeWindingEnds α) (c : Conversion α (ThreeWindingModel α)), t.convert p = .ok c →
      (∃ clock : Option Issue, c.diagnostics = clock.toList ∧
        Reports clock .unsupportedModeling t.id (p.clocks = true ∧ t.windings.one.clock ≠ 0)) ∧
      ∀ i ∈ c.diagnostics, i.condition ≠ .conflictingRegulation := by
  constructor
  · intro t c hc
    obtain ⟨-, s, -, rfl⟩ := TwoWindingEnds.convert_eq_ok.1 hc
    obtain ⟨clock, hclock, clockReports⟩ := t.exists_reports_clockIssues p
    obtain ⟨ratio, hratio, ratioReports⟩ := exists_reports_conflicts
      (t.firstEnd p.twoWinding).ratioTapChanger (t.secondEnd p.twoWinding).ratioTapChanger
    obtain ⟨phase, hphase, phaseReports⟩ := exists_reports_conflicts
      (t.firstEnd p.twoWinding).phaseTapChanger (t.secondEnd p.twoWinding).phaseTapChanger
    rw [t.regulates_firstEnd_and_secondEnd p.twoWinding (·.ratioTapChanger)] at ratioReports
    rw [t.regulates_firstEnd_and_secondEnd p.twoWinding (·.phaseTapChanger)] at phaseReports
    refine ⟨clock, ratio, phase, ?_, clockReports, ratioReports, phaseReports⟩
    change t.diagnostics p = _
    rw [t.diagnostics_eq, t.tapConflicts_eq, hclock, hratio, hphase, List.append_assoc]
  · intro t c hc
    obtain ⟨-, legs, -, rfl⟩ := ThreeWindingEnds.convert_eq_ok.1 hc
    obtain ⟨clock, hclock, clockReports⟩ := t.exists_reports_clockIssues p
    have hlist : (t.conversionOf p legs).diagnostics = clock.toList :=
      calc (t.conversionOf p legs).diagnostics = t.clockIssues p ++ t.tapConflicts p := rfl
        _ = t.clockIssues p := by rw [t.tapConflicts_eq_nil, List.append_nil]
        _ = clock.toList := hclock
    refine ⟨⟨clock, hlist, clockReports⟩, fun i hi => ?_⟩
    rw [hlist, Option.mem_toList] at hi
    rw [clockReports.condition i hi]
    decide

/-- A clock at end1, two regulating ratio tap changers of which that of end2 comes first, one
regulating phase tap changer; and three windings that all have a clock. -/
theorem convert_issues_of_both_kinds :
    let control : Regulation Float := ⟨.voltage, 110, 1, none, true⟩
    let tap (name : String) : Option (TapChanger Float) :=
      some ⟨name, 0, [.plain 1 ⟨0⟩, .plain 1.2 ⟨3⟩], 0, 1, some control⟩
    let end1 : WindingEnd Float := ⟨1, 10, 0.5, -2, ⟨110⟩, "1", 1, tap "a", none⟩
    let end2 : WindingEnd Float := ⟨1, 5, 0.25, 1, ⟨20⟩, "2", 5, tap "b", tap "c"⟩
    let t : TwoWindingEnds Float := ⟨"T", end1, end2⟩
    let u : ThreeWindingEnds Float := ⟨"U", ⟨end1, end2, end2⟩⟩
    let p : Policy := { twoWinding := { taps := .reactanceFree }, clocks := true }
    (∃ c, t.convert p = .ok c ∧ ∃ clock ratio : Issue, c.diagnostics = [clock, ratio] ∧
      clock.entity = some "T" ∧ ratio.entity = some "b") ∧
    ∃ c, u.convert p = .ok c ∧ ∃ clock : Issue, c.diagnostics = [clock] ∧
      clock.entity = some "U" ∧ clock.condition = .unsupportedModeling := by
  intro control tap end1 end2 t u p
  have hfirst : t.firstEnd p.twoWinding = end2 := if_neg (by decide +kernel)
  have regulates (name : String) : Regulates (tap name) := ⟨_, rfl, control, rfl, rfl⟩
  obtain ⟨c, hc⟩ : ∃ c, t.convert p = .ok c := Checked.exists_eq_ok (by decide +kernel)
  obtain ⟨d, hd⟩ : ∃ d, u.convert p = .ok d := Checked.exists_eq_ok (by decide +kernel)
  obtain ⟨htwo, hthree⟩ := convert_issues (α := Float) p
  obtain ⟨clock, ratio, phase, hlist, hclock, hratio, hphase⟩ := htwo t c hc
  obtain ⟨⟨first, hfirstList, hfirstClock⟩, -⟩ := hthree u d hd
  obtain ⟨i, rfl⟩ := Option.isSome_iff_exists.1 (hclock.isSome_iff.2 ⟨rfl, by decide⟩)
  obtain ⟨j, rfl⟩ := Option.isSome_iff_exists.1 (hratio.isSome_iff.2 ⟨regulates _, regulates _⟩)
  obtain ⟨k, rfl⟩ := Option.isSome_iff_exists.1 (hfirstClock.isSome_iff.2 ⟨rfl, by decide⟩)
  obtain rfl : phase = none :=
    Option.not_isSome_iff_eq_none.1 fun h => nomatch (hphase.isSome_iff.1 h).1
  refine ⟨⟨c, hc, i, j, hlist, hclock.entity i rfl, ?_⟩,
    d, hd, k, hfirstList, hfirstClock.entity k rfl, hfirstClock.condition k rfl⟩
  rw [hratio.entity j rfl, hfirst]
  rfl

end EquivalentCircuit
