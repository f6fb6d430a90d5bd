import EquivalentCircuit.Numeric.MachineScalar
import EquivalentCircuit.Proofs.ConversionIssues

/-! Which controls a conversion keeps. What a combination of two tap changers carries depends only
on what the two carry, and neither the move to end1 nor flipped angles change that. So the control
of a converted tap changer can be read off the raw ends, in the order the policy puts them, and the
records of the conversion off its tap changers. -/

namespace EquivalentCircuit

variable {α : Type}

def TapChangerKind.all : List TapChangerKind := [ratio, phase]

def WindingEnd.tap (e : WindingEnd α) : TapChangerKind → Option (TapChanger α)
  | .ratio => e.ratioTapChanger
  | .phase => e.phaseTapChanger

def TwoWindingModel.tap (t : TwoWindingModel α) : TapChangerKind → Option (TapChanger α)
  | .ratio => t.end1.ratioTapChanger
  | .phase => t.end1.phaseTapChanger

def controlOf (a : Option (TapChanger α)) : Option (Regulation α) := a.bind (·.regulation)

/-- Of several controls the first active one, or the first if none is active. -/
def survivor (rs : List (Regulation α)) : Option (Regulation α) :=
  (rs.find? (·.enabled)).or rs.head?

theorem survivor_toList (r : Option (Regulation α)) : survivor r.toList = r := by
  cases r with
  | none => rfl
  | some r => cases h : r.enabled <;> simp [survivor, h]

theorem isSome_survivor (r s : Option (Regulation α)) :
    (survivor (r.toList ++ s.toList)).isSome ↔ r.isSome ∨ s.isSome := by
  cases r <;> cases s <;> simp [survivor]

theorem mem_of_mem_survivor {rs : List (Regulation α)} {r : Regulation α} (h : r ∈ survivor rs) :
    r ∈ rs := by
  rcases Option.or_eq_some_iff.1 h with h | ⟨-, h⟩
  · exact List.mem_of_find?_eq_some h
  · exact List.mem_of_mem_head? h

/-- An active control is not lost to an idle one. -/
theorem enabled_survivor {rs : List (Regulation α)} :
    (∃ r ∈ survivor rs, r.enabled = true) ↔ ∃ r ∈ rs, r.enabled = true := by
  constructor
  · rintro ⟨r, hr, he⟩
    exact ⟨r, mem_of_mem_survivor hr, he⟩
  · intro h
    obtain ⟨r, hr⟩ := Option.isSome_iff_exists.1 (List.find?_isSome.2 h)
    exact ⟨r, Option.or_eq_some_iff.2 (.inl hr), List.find?_some hr⟩

theorem enabled_survivor_or (r s : Option (Regulation α)) :
    (∃ x ∈ survivor (r.toList ++ s.toList), x.enabled = true) ↔
      (∃ x ∈ r, x.enabled = true) ∨ ∃ x ∈ s, x.enabled = true := by
  rw [enabled_survivor]
  simp only [List.mem_append, Option.mem_toList, Option.mem_def, or_and_right, exists_or]

theorem regulates_iff {a : Option (TapChanger α)} :
    Regulates a ↔ ∃ r ∈ controlOf a, r.enabled = true := by
  cases a with
  | none => simp [Regulates, controlOf]
  | some t => simp [Regulates, controlOf]

instance (a : Option (TapChanger α)) : Decidable (Regulates a) :=
  decidable_of_iff ((controlOf a).any (·.enabled) = true)
    ((Option.any_eq_true _ _).trans regulates_iff.symm)

/-- What a slot carries: nothing if it holds no tap changer, else the control of this one, which
may be none. -/
abbrev Carried (α : Type) := Option (Option (Regulation α))

namespace Carried

def ofSlot (a : Option (TapChanger α)) : Carried α := a.map (·.regulation)

def merge : Carried α → Carried α → Carried α
  | some r, some s => some (survivor (r.toList ++ s.toList))
  | x, y => x.or y

variable (x y : Carried α)

@[simp] theorem merge_none : merge x none = x := by
  cases x <;> rfl

@[simp] theorem none_merge : merge none x = x := by
  cases x <;> rfl

theorem isSome_merge : (merge x y).isSome ↔ x.isSome ∨ y.isSome := by
  cases x <;> cases y <;> simp [merge]

theorem join_merge : (merge x y).join = survivor (x.join.toList ++ y.join.toList) := by
  match x, y with
  | none, none => rfl
  | some r, some s => rfl
  | none, some s => exact (survivor_toList s).symm
  | some r, none =>
    change r = survivor (r.toList ++ [])
    rw [List.append_nil, survivor_toList]

theorem isSome_ofSlot (a : Option (TapChanger α)) : (ofSlot a).isSome = a.isSome := by
  cases a <;> rfl

theorem join_ofSlot (a : Option (TapChanger α)) : (ofSlot a).join = controlOf a := by
  cases a <;> rfl

theorem keptRegulation_eq (a b : TapChanger α) :
    a.keptRegulation b = survivor (a.regulation.toList ++ b.regulation.toList) := by
  unfold TapChanger.keptRegulation TapChanger.isRegulating
  match a.regulation, b.regulation with
  | none, none => rfl
  | some r, none => cases h : r.enabled <;> simp [survivor, h]
  | none, some s => cases h : s.enabled <;> simp [survivor, h]
  | some r, some s => cases h : r.enabled <;> cases h' : s.enabled <;> simp [survivor, h, h']

variable [Scalar α] (a b : Option (TapChanger α))

theorem ofSlot_combine : ofSlot (TapChanger.combine a b) = merge (ofSlot a) (ofSlot b) := by
  match a, b with
  | none, none => rfl
  | some a, none => rfl
  | none, some b => rfl
  | some a, some b => exact congrArg some (keptRegulation_eq a b)

@[simp] theorem ofSlot_relocate : ofSlot (a.map TapChanger.relocate) = ofSlot a := by
  cases a <;> rfl

@[simp] theorem ofSlot_negateAngles : ofSlot (a.map TapChanger.negateAngles) = ofSlot a := by
  cases a <;> rfl

end Carried

open Carried (ofSlot merge)

namespace TapSlots

def tap1 (s : TapSlots α) : TapChangerKind → Option (TapChanger α)
  | .ratio => s.ratio1
  | .phase => s.phase1

def tap2 (s : TapSlots α) : TapChangerKind → Option (TapChanger α)
  | .ratio => s.ratio2
  | .phase => s.phase2

variable [Scalar α] (s : TapSlots α) (k : TapChangerKind)

def moved : TapChangerKind → Option (TapChanger α)
  | .ratio => s.ratio
  | .phase => s.phase

theorem moved_eq : s.moved k = TapChanger.combine (s.tap1 k) ((s.tap2 k).map .relocate) := by
  cases k <;> rfl

theorem ofSlot_moved : ofSlot (s.moved k) = merge (ofSlot (s.tap1 k)) (ofSlot (s.tap2 k)) := by
  rw [moved_eq, Carried.ofSlot_combine, Carried.ofSlot_relocate]

/-- Flipped angles change no control. -/
theorem ofSlot_moved_negatePhase : ofSlot (s.negatePhase.moved k) = ofSlot (s.moved k) := by
  rw [ofSlot_moved, ofSlot_moved]
  cases k with
  | ratio => rfl
  | phase => simp [tap1, tap2, negatePhase]

/-- Gathered tap changers meet no others. -/
theorem ofSlot_moved_gather (side : Side) :
    ofSlot ((s.gather side).moved k) =
      match side with
      | .end1 => merge (ofSlot (s.tap1 k)) (ofSlot (s.tap2 k))
      | .end2 => merge (ofSlot (s.tap2 k)) (ofSlot (s.tap1 k)) := by
  rw [ofSlot_moved]
  cases side with
  | end1 =>
    have h1 : (s.gather .end1).tap1 k = TapChanger.combine (s.tap1 k) (s.tap2 k) := by
      cases k <;> rfl
    have h2 : (s.gather .end1).tap2 k = none := by cases k <;> rfl
    rw [h1, h2, Carried.ofSlot_combine]
    exact Carried.merge_none _
  | end2 =>
    have h1 : (s.gather .end2).tap1 k = none := by cases k <;> rfl
    have h2 : (s.gather .end2).tap2 k = TapChanger.combine (s.tap2 k) (s.tap1 k) := by
      cases k <;> rfl
    rw [h1, h2, Carried.ofSlot_combine]
    exact Carried.none_merge _

end TapSlots

/-! Records. -/

/-- Of lists put one after another a filter for the key of one of them leaves this one. -/
theorem filter_flatMap_of_key {ι κ β : Type} [DecidableEq κ] {name : ι → κ} {key : β → κ}
    {f : ι → List β} (hname : name.Injective) (hkey : ∀ i, ∀ b ∈ f i, key b = name i)
    {is : List ι} (his : is.Nodup) {i : ι} (hi : i ∈ is) :
    (is.flatMap f).filter (fun b => decide (key b = name i)) = f i := by
  have hkeep : (f i).filter (fun b => decide (key b = name i)) = f i :=
    List.filter_eq_self.2 fun b hb => decide_eq_true (hkey i b hb)
  have hdrop {js : List ι} (hjs : i ∉ js) :
      (js.flatMap f).filter (fun b => decide (key b = name i)) = [] := by
    refine List.filter_eq_nil_iff.2 fun b hb => ?_
    obtain ⟨j, hj, hb⟩ := List.mem_flatMap.1 hb
    rw [hkey j b hb, decide_eq_true_eq]
    intro hji
    exact hjs (hname hji ▸ hj)
  obtain ⟨before, after, rfl⟩ := List.append_of_mem hi
  have hother : i ∉ before ++ after := (List.nodup_cons.1 (List.perm_middle.nodup_iff.1 his)).1
  rw [List.mem_append, not_or] at hother
  rw [List.flatMap_append, List.flatMap_cons, List.filter_append, List.filter_append, hkeep,
    hdrop hother.1, hdrop hother.2, List.nil_append, List.append_nil]

namespace ControlRecord

theorem ofTapChanger_none {k : TapChangerKind} {w : Option WindingIndex}
    {a : Option (TapChanger α)} (h : controlOf a = none) : ofTapChanger k w a = [] := by
  cases a with
  | none => rfl
  | some t =>
    change t.regulation = none at h
    rw [ofTapChanger, h]
    rfl

theorem ofTapChanger_some {k : TapChangerKind} {w : Option WindingIndex} {t : TapChanger α}
    {r : Regulation α} (h : t.regulation = some r) :
    ofTapChanger k w (some t) = [⟨k, w, t.id, r⟩] := by
  rw [ofTapChanger, h]
  rfl

theorem mem_ofTapChanger {k : TapChangerKind} {w : Option WindingIndex} {a : Option (TapChanger α)}
    {r : ControlRecord α} (h : r ∈ ofTapChanger k w a) :
    ∃ (t : TapChanger α) (s : Regulation α), t.regulation = some s ∧ r = ⟨k, w, t.id, s⟩ := by
  cases hr : controlOf a with
  | none =>
    rw [ofTapChanger_none hr] at h
    cases h
  | some s =>
    obtain ⟨t, rfl, hs⟩ := Option.bind_eq_some_iff.1 hr
    rw [ofTapChanger_some hs, List.mem_singleton] at h
    exact ⟨t, s, hs, h⟩

theorem countP_isActive_ofTapChanger (k : TapChangerKind) (w : Option WindingIndex)
    (a : Option (TapChanger α)) :
    (ofTapChanger k w a).countP (·.isActive) = if Regulates a then 1 else 0 := by
  cases hr : controlOf a with
  | none => simp [ofTapChanger_none hr, regulates_iff, hr]
  | some s =>
    obtain ⟨t, rfl, hs⟩ := Option.bind_eq_some_iff.1 hr
    rw [ofTapChanger_some hs]
    simp [regulates_iff, hr, isActive, List.countP_cons]

theorem ofTwoWinding_eq_append (m : TwoWindingModel α) :
    ofTwoWinding m =
      ofTapChanger .ratio none (m.tap .ratio) ++ ofTapChanger .phase none (m.tap .phase) :=
  rfl

theorem filter_kind_ofTwoWinding (m : TwoWindingModel α) (k : TapChangerKind) :
    (ofTwoWinding m).filter (fun r => decide (r.kind = k)) = ofTapChanger k none (m.tap k) := by
  have hkey (j : TapChangerKind) : ∀ r ∈ ofTapChanger j none (m.tap j), r.kind = j := by
    intro r hr
    obtain ⟨t, s, -, rfl⟩ := mem_ofTapChanger hr
    rfl
  have hparts : ofTwoWinding m =
      TapChangerKind.all.flatMap fun j => ofTapChanger j none (m.tap j) := by
    rw [ofTwoWinding_eq_append]
    simp only [TapChangerKind.all, List.flatMap_cons, List.flatMap_nil, List.append_nil]
  rw [hparts]
  exact filter_flatMap_of_key Function.injective_id hkey (by decide) (by cases k <;> decide)

end ControlRecord

namespace TwoWindingEnds

variable [Scalar α]

/-- What a conversion makes of the tap changers of one kind. -/
structure KeepsControl (t : TwoWindingEnds α) (p : TwoWindingPolicy)
    (c : Conversion α (TwoWindingModel α)) (k : TapChangerKind) : Prop where
  present : (c.model.tap k).isSome ↔ (t.end1.tap k).isSome ∨ (t.end2.tap k).isSome
  controlled : (controlOf (c.model.tap k)).isSome ↔
    (controlOf (t.end1.tap k)).isSome ∨ (controlOf (t.end2.tap k)).isSome
  active : Regulates (c.model.tap k) ↔ Regulates (t.end1.tap k) ∨ Regulates (t.end2.tap k)
  control : controlOf (c.model.tap k) =
    survivor ((controlOf ((t.firstEnd p).tap k)).toList ++
      (controlOf ((t.secondEnd p).tap k)).toList)
  record : ∀ u ∈ c.model.tap k, ∀ r ∈ u.regulation,
    c.controls.filter (fun s => decide (s.kind = k)) = [⟨k, none, u.id, r⟩]
  noRecord : controlOf (c.model.tap k) = none →
    c.controls.filter (fun s => decide (s.kind = k)) = []

variable (t : TwoWindingEnds α) (p : TwoWindingPolicy) (k : TapChangerKind)

theorem tap_modelOf (p : Policy) (s : PiSection α) :
    (t.modelOf p s).tap k = (t.placedSlots p.twoWinding).moved k := by
  cases k <;> rfl

theorem ofSlot_moved_placedSlots :
    ofSlot ((t.placedSlots p).moved k) =
      merge (ofSlot ((t.firstEnd p).tap k)) (ofSlot ((t.secondEnd p).tap k)) := by
  have hplaced : ofSlot ((t.placedSlots p).moved k) =
      ofSlot ((t.slots.place (p.taps.target? t.reactanceFree1)).moved k) := by
    unfold placedSlots
    cases p.phaseNegate with
    | false => rfl
    | true => exact TapSlots.ofSlot_moved_negatePhase _ k
  have h1 : t.end1.tap k = t.slots.tap1 k := by cases k <;> rfl
  have h2 : t.end2.tap k = t.slots.tap2 k := by cases k <;> rfl
  rw [hplaced]
  refine t.placement_cases p (motive := fun side first second =>
    ofSlot ((t.slots.place side).moved k) = merge (ofSlot (first.tap k)) (ofSlot (second.tap k)))
    ?_ ?_ ?_
  · rw [h1, h2]
    exact t.slots.ofSlot_moved k
  · rw [h1, h2]
    exact t.slots.ofSlot_moved_gather k .end1
  · rw [h1, h2]
    exact t.slots.ofSlot_moved_gather k .end2

theorem firstEnd_or_secondEnd (P : WindingEnd α → Prop) :
    P (t.firstEnd p) ∨ P (t.secondEnd p) ↔ P t.end1 ∨ P t.end2 := by
  unfold firstEnd secondEnd
  split
  · rfl
  · exact or_comm

variable {t : TwoWindingEnds α} {p : Policy} {c : Conversion α (TwoWindingModel α)}

theorem keepsControl_of_convert (hc : t.convert p = .ok c) (k : TapChangerKind) :
    t.KeepsControl p.twoWinding c k := by
  obtain ⟨-, s, -, rfl⟩ := convert_eq_ok.1 hc
  have hmodel : ofSlot ((t.modelOf p s).tap k) =
      merge (ofSlot ((t.firstEnd p.twoWinding).tap k))
        (ofSlot ((t.secondEnd p.twoWinding).tap k)) := by
    rw [tap_modelOf, ofSlot_moved_placedSlots]
  have hcontrol : controlOf ((t.modelOf p s).tap k) =
      survivor ((controlOf ((t.firstEnd p.twoWinding).tap k)).toList ++
        (controlOf ((t.secondEnd p.twoWinding).tap k)).toList) := by
    rw [← Carried.join_ofSlot, hmodel, Carried.join_merge, Carried.join_ofSlot,
      Carried.join_ofSlot]
  refine ⟨?_, ?_, ?_, hcontrol, fun u hu r hr => ?_, fun hnone => ?_⟩
  · rw [← t.firstEnd_or_secondEnd p.twoWinding fun e => (e.tap k).isSome]
    change ((t.modelOf p s).tap k).isSome ↔ _
    rw [← Carried.isSome_ofSlot, hmodel, Carried.isSome_merge, Carried.isSome_ofSlot,
      Carried.isSome_ofSlot]
  · rw [← t.firstEnd_or_secondEnd p.twoWinding fun e => (controlOf (e.tap k)).isSome]
    change (controlOf ((t.modelOf p s).tap k)).isSome ↔ _
    rw [hcontrol, isSome_survivor]
  · rw [← t.firstEnd_or_secondEnd p.twoWinding fun e => Regulates (e.tap k)]
    change Regulates ((t.modelOf p s).tap k) ↔ _
    rw [regulates_iff, hcontrol, enabled_survivor_or, regulates_iff, regulates_iff]
  · change (ControlRecord.ofTwoWinding (t.modelOf p s)).filter _ = _
    change (t.modelOf p s).tap k = some u at hu
    rw [ControlRecord.filter_kind_ofTwoWinding, hu, ControlRecord.ofTapChanger_some hr]
  · exact (ControlRecord.filter_kind_ofTwoWinding _ k).trans (ControlRecord.ofTapChanger_none hnone)

/-- The tap changers of a conversion, kind by kind: there is one if an end has one, it carries a
control if an end's does and an active one if an end's does, and it is the first active one in the
order of the policy, or else the first. Each control has one record, so the active records are as
many as the kinds that an end regulates. -/
theorem convert_keeps_controls (hc : t.convert p = .ok c) :
    (∀ k, t.KeepsControl p.twoWinding c k) ∧
      c.controls.countP (·.isActive) =
        TapChangerKind.all.countP fun k => Regulates (t.end1.tap k) ∨ Regulates (t.end2.tap k) := by
  refine ⟨keepsControl_of_convert hc, ?_⟩
  have hactive (k : TapChangerKind) := (keepsControl_of_convert hc k).active
  obtain ⟨-, s, -, rfl⟩ := convert_eq_ok.1 hc
  change (ControlRecord.ofTwoWinding (t.modelOf p s)).countP _ = _
  change ∀ k, Regulates ((t.modelOf p s).tap k) ↔ _ at hactive
  rw [ControlRecord.ofTwoWinding_eq_append, List.countP_append,
    ControlRecord.countP_isActive_ofTapChanger, ControlRecord.countP_isActive_ofTapChanger]
  simp only [TapChangerKind.all, List.countP_cons, List.countP_nil, hactive, decide_eq_true_eq,
    Nat.zero_add]
  exact Nat.add_comm ..

/-- Two ratio tap changers, of which that of end1 comes first but is idle, and a phase tap changer
without control: the active control is kept, and its record is the only one. -/
theorem convert_keeps_controls_of_second_end :
    let idle : Regulation Float := ⟨.voltage, 110, 1, none, false⟩
    let active : Regulation Float := ⟨.activePower, 20, 1, some "2", true⟩
    let tap (name : String) (control : Option (Regulation Float)) : Option (TapChanger Float) :=
      some ⟨name, 0, [.plain 1 ⟨0⟩, .plain 1.2 ⟨3⟩], 0, 1, control⟩
    let t : TwoWindingEnds Float :=
      ⟨"T", ⟨1, 10, 0.5, -2, ⟨110⟩, "1", 0, tap "a" (some idle), none⟩,
        ⟨1, 5, 0.25, 1, ⟨20⟩, "2", 0, tap "b" (some active), tap "c" none⟩⟩
    ∃ c, t.convert {} = .ok c ∧ controlOf (c.model.tap .ratio) = some active ∧
      (c.model.tap .phase).isSome ∧ c.controls.filter (fun s => decide (s.kind = .phase)) = [] ∧
      c.controls.countP (·.isActive) = 1 := by
  intro idle active tap t
  obtain ⟨c, hc⟩ : ∃ c, t.convert {} = .ok c := Checked.exists_eq_ok (by decide +kernel)
  obtain ⟨hkeeps, hactive⟩ := convert_keeps_controls hc
  have hratio := (hkeeps .ratio).control
  have hphase := (hkeeps .phase).control
  have hfirst : t.firstEnd {} = t.end1 := if_pos (by decide)
  have hsecond : t.secondEnd {} = t.end2 := if_pos (by decide)
  rw [hfirst, hsecond] at hratio hphase
  exact ⟨c, hc, hratio, (hkeeps .phase).present.2 (.inr rfl), (hkeeps .phase).noRecord hphase,
    hactive⟩

end TwoWindingEnds

end EquivalentCircuit
