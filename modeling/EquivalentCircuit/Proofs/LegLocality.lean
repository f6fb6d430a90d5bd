import EquivalentCircuit.Proofs.ConvertedTaps
import EquivalentCircuit.Proofs.KeptControls

/-! What one leg of a three-winding transformer depends on. The legs share the reference voltage
and the list of records, but each leg is made of its own winding and its own policy, and a record
names the leg it comes from. So a leg and its records can be told from these alone, whatever the
other two windings are. -/

namespace EquivalentCircuit

variable {α : Type}

namespace ControlRecord

theorem winding_of_mem_ofTapChanger {k : TapChangerKind} {w : Option WindingIndex}
    {a : Option (TapChanger α)} {r : ControlRecord α} (h : r ∈ ofTapChanger k w a) :
    r.winding = w := by
  obtain ⟨t, s, -, rfl⟩ := mem_ofTapChanger h
  rfl

theorem winding_of_mem_ofLeg {l : LegModel α} {r : ControlRecord α} (h : r ∈ ofLeg l) :
    r.winding = some l.index := by
  rcases List.mem_append.1 h with h | h
  · exact winding_of_mem_ofTapChanger h
  · exact winding_of_mem_ofTapChanger h

/-- Where each leg has its own index, a winding has the records of its leg, in their order. -/
theorem filter_winding_ofThreeWinding {m : ThreeWindingModel α}
    (h : ∀ i, (m.legs.get i).index = i) (i : WindingIndex) :
    (ofThreeWinding m).filter (fun r => decide (r.winding = some i)) = ofLeg (m.legs.get i) := by
  have hkey (j : WindingIndex) : ∀ r ∈ ofLeg (m.legs.get j), r.winding = some j := by
    intro r hr
    rw [winding_of_mem_ofLeg hr, h j]
  have hall : WindingIndex.all.Nodup := by decide
  have hi : i ∈ WindingIndex.all := by cases i <;> decide
  exact filter_flatMap_of_key (fun _ _ => Option.some.inj) hkey hall hi

end ControlRecord

namespace ThreeWindingEnds

variable [Scalar α] {i : WindingIndex} {p q : Policy} {t u : ThreeWindingEnds α}
  {c d : Conversion α (ThreeWindingModel α)}

/-- What two transformers under two policies have to agree on for one leg. -/
structure SameLeg (i : WindingIndex) (p q : Policy) (t u : ThreeWindingEnds α) : Prop where
  winding : t.windings.get i = u.windings.get i
  policy : p.threeWinding.legs.get i = q.threeWinding.legs.get i
  clocks : p.clocks = q.clocks
  reference : p.threeWinding.starVoltage.select t = q.threeWinding.starVoltage.select u
  networkSide : p.threeWinding.starVoltage = .networkSide ↔ q.threeWinding.starVoltage = .networkSide

theorem SameLeg.leg_eq (h : SameLeg i p q t u) : t.leg p i = u.leg q i := by
  have hrefers : p.threeWinding.starVoltage.refersLegs = q.threeWinding.starVoltage.refersLegs := by
    unfold StarVoltage.refersLegs
    rw [decide_eq_decide]
    exact not_congr h.networkSide
  unfold leg
  rw [h.winding, h.policy, h.clocks, h.reference, hrefers]

theorem leg_of_convert (hc : t.convert p = .ok c) (i : WindingIndex) :
    t.leg p i = .ok (c.model.legs.get i) := by
  obtain ⟨-, legs, hlegs, rfl⟩ := convert_eq_ok.1 hc
  exact WindingIndex.mapM_each_eq_ok.1 hlegs i

/-- The records of a winding are those of its leg. -/
theorem filter_controls_of_convert (hc : t.convert p = .ok c) (i : WindingIndex) :
    c.controls.filter (fun r => decide (r.winding = some i)) =
      ControlRecord.ofLeg (c.model.legs.get i) := by
  have hindex (j : WindingIndex) : (c.model.legs.get j).index = j := by
    obtain ⟨s, hs⟩ := exists_leg_of_convert hc j
    exact congrArg LegModel.index hs
  have hcontrols : c.controls = ControlRecord.ofThreeWinding c.model := by
    obtain ⟨-, legs, -, rfl⟩ := convert_eq_ok.1 hc
    rfl
  rw [hcontrols, ControlRecord.filter_winding_ofThreeWinding hindex]

/-- Two conversions that agree on what a leg is made of give the same leg, with the same records in
the same order. -/
theorem convert_leg_local (hc : t.convert p = .ok c) (hd : u.convert q = .ok d)
    (h : SameLeg i p q t u) :
    c.model.legs.get i = d.model.legs.get i ∧
      c.controls.filter (fun r => decide (r.winding = some i)) =
        d.controls.filter (fun r => decide (r.winding = some i)) := by
  have hleg : c.model.legs.get i = d.model.legs.get i :=
    Except.ok.inj (((leg_of_convert hc i).symm.trans h.leg_eq).trans (leg_of_convert hd i))
  rw [filter_controls_of_convert hc, filter_controls_of_convert hd, hleg]
  exact ⟨rfl, rfl⟩

/-- The second windings agree and both have a control for each kind. The reference is that of winding
1 in one transformer and that of winding 3 in the other, where these have the same voltage. -/
theorem convert_leg_local_second :
    let control : Regulation Float := ⟨.voltage, 110, 1, none, true⟩
    let tap (name : String) : Option (TapChanger Float) :=
      some ⟨name, 0, [.plain 1 ⟨0⟩, .plain 1.2 ⟨3⟩], 0, 1, some control⟩
    let winding (r u : Float) (ratio phase : Option (TapChanger Float)) : WindingEnd Float :=
      ⟨r, 2, 0.5, -1, ⟨u⟩, "B", 5, ratio, phase⟩
    let t : ThreeWindingEnds Float :=
      ⟨"T", ⟨winding 1 110 (tap "a") none, winding 3 20 (tap "b") (tap "c"), winding 0 10 none none⟩⟩
    let u : ThreeWindingEnds Float :=
      ⟨"U", ⟨winding 0 5 none none, winding 3 20 (tap "b") (tap "c"), winding 7 110 none (tap "d")⟩⟩
    let p : Policy := { threeWinding := ⟨.end1, ⟨{}, ⟨false, .split, true⟩, {}⟩⟩ }
    let q : Policy :=
      { twoWinding := { phaseNegate := true }
        threeWinding := ⟨.end3, ⟨⟨false, .starBusSide, false⟩, ⟨false, .split, true⟩, {}⟩⟩ }
    ∃ c d, t.convert p = .ok c ∧ u.convert q = .ok d ∧ c.model.legs.two = d.model.legs.two ∧
      c.controls.filter (fun r => decide (r.winding = some .two)) =
        d.controls.filter (fun r => decide (r.winding = some .two)) := by
  intro control tap winding t u p q
  obtain ⟨c, hc⟩ : ∃ c, t.convert p = .ok c := Checked.exists_eq_ok (by decide +kernel)
  obtain ⟨d, hd⟩ : ∃ d, u.convert q = .ok d := Checked.exists_eq_ok (by decide +kernel)
  have hsame : SameLeg .two p q t u := ⟨rfl, rfl, rfl, rfl, by decide⟩
  exact ⟨c, d, hc, hd, convert_leg_local hc hd hsame⟩

end ThreeWindingEnds

end EquivalentCircuit
