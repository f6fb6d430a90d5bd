import Mathlib.Tactic.SplitIfs
import EquivalentCircuit.Proofs.Checked
import EquivalentCircuit.Numeric.MachineScalar

/-! The axes of a policy do not interfere. A conversion has three parts that vary with the policy:
the tap changers with their controls and conflicts, the section, and the clock with its warning.
Each is computed from the ends and from its own axes alone, so two runs that agree on these agree on
the part, whatever the other axes say. -/

namespace EquivalentCircuit

namespace Diagnostics

variable {c : Condition} {d e : Diagnostics}

theorem ofCondition_append : ofCondition (d ++ e) c = ofCondition d c ++ ofCondition e c :=
  List.filter_append d e

theorem ofCondition_eq_self (h : ∀ i ∈ d, i.condition = c) : ofCondition d c = d :=
  List.filter_eq_self.2 fun i hi => decide_eq_true (h i hi)

theorem ofCondition_eq_nil (h : ∀ i ∈ d, i.condition ≠ c) : ofCondition d c = [] := by
  refine List.filter_eq_nil_iff.2 fun i hi => ?_
  rw [decide_eq_true_eq]
  exact h i hi

end Diagnostics

variable {α : Type}

theorem TapChanger.condition_of_mem_conflicts {a b : Option (TapChanger α)} {i : Issue}
    (h : i ∈ conflicts a b) : i.condition = .conflictingRegulation := by
  unfold conflicts at h
  split at h
  · split_ifs at h
    · rw [List.mem_singleton.1 h]
      rfl
    · cases h
  · cases h

namespace TapSlots

theorem condition_of_mem_placeConflicts {s : TapSlots α} {side : Option Side} {i : Issue}
    (h : i ∈ s.placeConflicts side) : i.condition = .conflictingRegulation := by
  cases side with
  | none => cases h
  | some side =>
    cases side <;>
    · rcases List.mem_append.1 h with h | h
      · exact TapChanger.condition_of_mem_conflicts h
      · exact TapChanger.condition_of_mem_conflicts h

theorem condition_of_mem_moveConflicts [Scalar α] {s : TapSlots α} {i : Issue}
    (h : i ∈ s.moveConflicts) : i.condition = .conflictingRegulation := by
  rcases List.mem_append.1 h with h | h
  · exact TapChanger.condition_of_mem_conflicts h
  · exact TapChanger.condition_of_mem_conflicts h

end TapSlots

namespace Conversion

variable {c d : Conversion α (TwoWindingModel α)}

structure SameTaps (c d : Conversion α (TwoWindingModel α)) : Prop where
  ratio : c.model.end1.ratioTapChanger = d.model.end1.ratioTapChanger
  phase : c.model.end1.phaseTapChanger = d.model.end1.phaseTapChanger
  controls : c.controls = d.controls
  conflicts : c.diagnostics.ofCondition .conflictingRegulation =
    d.diagnostics.ofCondition .conflictingRegulation

structure SameSection (c d : Conversion α (TwoWindingModel α)) : Prop where
  r : c.model.r = d.model.r
  x : c.model.x = d.model.x
  g : c.model.end1.g = d.model.end1.g
  b : c.model.end1.b = d.model.end1.b

structure SameClock (c d : Conversion α (TwoWindingModel α)) : Prop where
  clock : c.model.clock = d.model.clock
  issues : c.diagnostics.ofCondition .unsupportedModeling =
    d.diagnostics.ofCondition .unsupportedModeling

end Conversion

namespace TwoWindingEnds

theorem condition_of_mem_clockIssues {t : TwoWindingEnds α} {p : Policy} {i : Issue}
    (h : i ∈ t.clockIssues p) : i.condition = .unsupportedModeling := by
  unfold clockIssues at h
  split_ifs at h
  · rw [List.mem_singleton.1 h]
    rfl
  · cases h

variable [Scalar α] (t : TwoWindingEnds α)

def tapConflicts (p : TwoWindingPolicy) : Diagnostics :=
  t.slots.placeConflicts (p.taps.target? t.reactanceFree1) ++ (t.placedSlots p).moveConflicts

theorem diagnostics_eq (p : Policy) :
    t.diagnostics p = t.clockIssues p ++ t.tapConflicts p.twoWinding :=
  List.append_assoc _ _ _

theorem condition_of_mem_tapConflicts {t : TwoWindingEnds α} {p : TwoWindingPolicy} {i : Issue}
    (h : i ∈ t.tapConflicts p) : i.condition = .conflictingRegulation := by
  rcases List.mem_append.1 h with h | h
  · exact TapSlots.condition_of_mem_placeConflicts h
  · exact TapSlots.condition_of_mem_moveConflicts h

theorem conflicts_of_diagnostics (p : Policy) :
    (t.diagnostics p).ofCondition .conflictingRegulation = t.tapConflicts p.twoWinding := by
  have hclock : ∀ i ∈ t.clockIssues p, i.condition ≠ .conflictingRegulation := by
    intro i hi
    rw [condition_of_mem_clockIssues hi]
    decide
  rw [diagnostics_eq, Diagnostics.ofCondition_append, Diagnostics.ofCondition_eq_nil hclock,
    Diagnostics.ofCondition_eq_self fun i hi => condition_of_mem_tapConflicts hi, List.nil_append]

theorem clockIssues_of_diagnostics (p : Policy) :
    (t.diagnostics p).ofCondition .unsupportedModeling = t.clockIssues p := by
  have htaps : ∀ i ∈ t.tapConflicts p.twoWinding, i.condition ≠ .unsupportedModeling := by
    intro i hi
    rw [condition_of_mem_tapConflicts hi]
    decide
  rw [diagnostics_eq, Diagnostics.ofCondition_append, Diagnostics.ofCondition_eq_nil htaps,
    Diagnostics.ofCondition_eq_self fun i hi => condition_of_mem_clockIssues hi, List.append_nil]

/-! Each part read off its own axes. -/

section Axes

variable {t : TwoWindingEnds α} {p q : TwoWindingPolicy}

theorem placedSlots_congr (ht : p.taps = q.taps) (hn : p.phaseNegate = q.phaseNegate) :
    t.placedSlots p = t.placedSlots q := by
  unfold placedSlots
  rw [ht, hn]

theorem tapConflicts_congr (ht : p.taps = q.taps) (hn : p.phaseNegate = q.phaseNegate) :
    t.tapConflicts p = t.tapConflicts q := by
  unfold tapConflicts
  rw [placedSlots_congr ht hn, ht]

theorem movedSection_congr (hs : p.shunt = q.shunt) (hr : p.structuralRatio = q.structuralRatio) :
    t.movedSection p = t.movedSection q := by
  unfold movedSection rawSection ratioAtEnd2
  rw [hs, hr]

theorem conversionOf_sameTaps {p q : Policy} (s s' : PiSection α)
    (ht : p.twoWinding.taps = q.twoWinding.taps)
    (hn : p.twoWinding.phaseNegate = q.twoWinding.phaseNegate) :
    (t.conversionOf p s).SameTaps (t.conversionOf q s') := by
  have hslots := placedSlots_congr (t := t) ht hn
  have hratio : (t.modelOf p s).end1.ratioTapChanger = (t.modelOf q s').end1.ratioTapChanger :=
    congrArg TapSlots.ratio hslots
  have hphase : (t.modelOf p s).end1.phaseTapChanger = (t.modelOf q s').end1.phaseTapChanger :=
    congrArg TapSlots.phase hslots
  refine ⟨hratio, hphase, ?_, ?_⟩
  · simp only [conversionOf, ControlRecord.ofTwoWinding, hratio, hphase]
  · exact (t.conflicts_of_diagnostics p).trans
      ((tapConflicts_congr ht hn).trans (t.conflicts_of_diagnostics q).symm)

theorem conversionOf_sameClock {p q : Policy} (s s' : PiSection α) (hc : p.clocks = q.clocks) :
    (t.conversionOf p s).SameClock (t.conversionOf q s') := by
  refine ⟨?_, ?_⟩
  · simp only [conversionOf, modelOf, carriedClock, hc]
  · have hissues : t.clockIssues p = t.clockIssues q := by
      unfold clockIssues
      rw [hc]
    exact (t.clockIssues_of_diagnostics p).trans
      (hissues.trans (t.clockIssues_of_diagnostics q).symm)

end Axes

/-- Two conversions of the same ends agree on every part whose axes agree, and the policy for
three-winding transformers has no part in any. -/
theorem convert_axes_independent (p q : Policy) :
    (∀ c d, t.convert p = .ok c → t.convert q = .ok d →
      (p.twoWinding.taps = q.twoWinding.taps →
        p.twoWinding.phaseNegate = q.twoWinding.phaseNegate → c.SameTaps d) ∧
      (p.twoWinding.shunt = q.twoWinding.shunt →
        p.twoWinding.structuralRatio = q.twoWinding.structuralRatio → c.SameSection d) ∧
      (p.clocks = q.clocks → c.SameClock d)) ∧
    ∀ w : ThreeWindingPolicy, t.convert { p with threeWinding := w } = t.convert p := by
  refine ⟨fun c d hc hd => ?_, fun w => rfl⟩
  obtain ⟨-, s, hs, rfl⟩ := convert_eq_ok.1 hc
  obtain ⟨-, s', hs', rfl⟩ := convert_eq_ok.1 hd
  refine ⟨conversionOf_sameTaps s s', fun hshunt hratio => ?_, conversionOf_sameClock s s'⟩
  rw [movedSection_congr hshunt hratio, hs'] at hs
  cases hs
  exact ⟨rfl, rfl, rfl, rfl⟩

/-- Four policies for ends with clocks, shunts and regulating tap changers at both sides. The others
agree with the first on the tap changers, on the section and on clocks, and on nothing else. -/
theorem convert_axes_independent_of_rest :
    let control : Regulation Float := ⟨.voltage, 110, 1, none, true⟩
    let a : TapChanger Float := ⟨"a", -1, [.plain 0.9 ⟨0⟩, .plain 1 ⟨0⟩], 1, 0, some control⟩
    let b : TapChanger Float := ⟨"b", 0, [.plain 1 ⟨0⟩, .plain 1.2 ⟨3⟩], 0, 1, some control⟩
    let t : TwoWindingEnds Float :=
      ⟨"T", ⟨1, 10, 0.5, -2, ⟨110⟩, "1", 1, some a, none⟩,
        ⟨1, 5, 0.25, 1, ⟨20⟩, "2", 5, some b, some b⟩⟩
    let p : Policy := {}
    let taps : Policy := ⟨⟨.ownEnd, .split, .end1, false⟩, ⟨.end2, ⟨{}, {}, {}⟩⟩, true⟩
    let section' : Policy := ⟨⟨.end1, .ownEnd, .reactanceFree, true⟩, ⟨.end2, ⟨{}, {}, {}⟩⟩, true⟩
    let clocks : Policy := ⟨⟨.end2, .end1, .end1, true⟩, ⟨.end2, ⟨{}, {}, {}⟩⟩, false⟩
    ∃ c ct cs cc, t.convert p = .ok c ∧ t.convert taps = .ok ct ∧ t.convert section' = .ok cs ∧
      t.convert clocks = .ok cc ∧ c.SameTaps ct ∧ c.SameSection cs ∧ c.SameClock cc := by
  intro control a b t p taps section' clocks
  obtain ⟨c, hc⟩ : ∃ c, t.convert p = .ok c := Checked.exists_eq_ok (by decide +kernel)
  obtain ⟨ct, ht⟩ : ∃ c, t.convert taps = .ok c := Checked.exists_eq_ok (by decide +kernel)
  obtain ⟨cs, hs⟩ : ∃ c, t.convert section' = .ok c := Checked.exists_eq_ok (by decide +kernel)
  obtain ⟨cc, hcc⟩ : ∃ c, t.convert clocks = .ok c := Checked.exists_eq_ok (by decide +kernel)
  exact ⟨c, ct, cs, cc, hc, ht, hs, hcc,
    ((convert_axes_independent t p taps).1 c ct hc ht).1 rfl rfl,
    ((convert_axes_independent t p section').1 c cs hc hs).2.1 rfl rfl,
    ((convert_axes_independent t p clocks).1 c cc hc hcc).2.2 rfl⟩

end TwoWindingEnds

end EquivalentCircuit
