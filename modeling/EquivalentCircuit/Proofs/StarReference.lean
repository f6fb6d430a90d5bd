import EquivalentCircuit.Proofs.RatioGroup
import EquivalentCircuit.Proofs.ShuntPlacement
import EquivalentCircuit.Proofs.Admission

/-! The legs of a three-winding transformer referred to its star bus. Without rounding a ratio that
moves away from the star bus changes the scale of its leg, by the square of the reference voltage
over that of the winding, and a shunt stays where the policy puts it. So a change of the reference
winding shows as one change of scale, the same for every leg that has a ratio. -/

namespace EquivalentCircuit
noncomputable section
open Classical

namespace PerWinding

variable {β γ : Type}

def map (f : β → γ) (p : PerWinding β) : PerWinding γ := ⟨f p.one, f p.two, f p.three⟩

@[simp] theorem get_map (f : β → γ) (p : PerWinding β) (i : WindingIndex) :
    (p.map f).get i = f (p.get i) := by
  cases i with
  | one => rfl
  | two => rfl
  | three => rfl

end PerWinding

/-- The shunt `y` of a leg is `y1` at the network side and `y2` at the star bus. -/
def LegShunt.Divides (y y1 y2 : ℝ) : LegShunt → Prop
  | .networkSide => y1 = y ∧ y2 = 0
  | .starBusSide => y1 = 0 ∧ y2 = y
  | .split => y1 = y2 ∧ y1 + y2 = y

namespace LegShunt

variable (p : LegShunt)

theorem Divides.add {p : LegShunt} {y y1 y2 : ℝ} (h : p.Divides y y1 y2) : y1 + y2 = y := by
  cases p with
  | networkSide =>
    obtain ⟨rfl, rfl⟩ := h
    exact add_zero _
  | starBusSide =>
    obtain ⟨rfl, rfl⟩ := h
    exact zero_add _
  | split => exact h.2

theorem half_div_add_half_div (y k : ℝ) : y * Scalar.half / k + y * Scalar.half / k = y / k := by
  rw [← add_div, mul_half_add_mul_half]

theorem divides_assign (g b k : ℝ) :
    p.Divides (g / k) ((p.assign g b).g1 / k) ((p.assign g b).g2 / k) ∧
      p.Divides (b / k) ((p.assign g b).b1 / k) ((p.assign g b).b2 / k) := by
  cases p with
  | networkSide => exact ⟨⟨rfl, zero_div k⟩, rfl, zero_div k⟩
  | starBusSide => exact ⟨⟨zero_div k, rfl⟩, zero_div k, rfl⟩
  | split => exact ⟨⟨rfl, half_div_add_half_div g k⟩, rfl, half_div_add_half_div b k⟩

end LegShunt

namespace LegModel

def scale (k : ℝ) (l : LegModel ℝ) : LegModel ℝ :=
  { l with
    r := k * l.r
    x := k * l.x
    end1.g := l.end1.g / k
    end1.b := l.end1.b / k
    end2.g := l.end2.g / k
    end2.b := l.end2.b / k }

theorem scale_one (l : LegModel ℝ) : l.scale 1 = l := by
  simp only [scale, one_mul, div_one]

/-- The leg is the winding `w` seen through the ratio `a`, its shunt placed as in `p`. -/
structure Referred (a : ℝ) (p : LegShunt) (w : WindingEnd ℝ) (l : LegModel ℝ) : Prop where
  r : l.r = a ^ 2 * w.r
  x : l.x = a ^ 2 * w.x
  totalG : l.totalG = w.g / a ^ 2
  totalB : l.totalB = w.b / a ^ 2
  placedG : p.Divides l.totalG l.end1.g l.end2.g
  placedB : p.Divides l.totalB l.end1.b l.end2.b

end LegModel

namespace WindingEnd

variable (w : WindingEnd ℝ)

def rawSection (p : LegPolicy) : PiSection ℝ := .ofShunts w.r w.x (p.shunt.assign w.g w.b)

theorem legOf_scale (clocks : Bool) (i : WindingIndex) (p : LegPolicy) (s : PiSection ℝ) (k : ℝ) :
    w.legOf clocks i p (s.scale k) = (w.legOf clocks i p s).scale k :=
  rfl

theorem referred_legOf (clocks : Bool) (i : WindingIndex) (p : LegPolicy) (a : ℝ) :
    (w.legOf clocks i p ((w.rawSection p).scale (a ^ 2))).Referred a p.shunt w := by
  obtain ⟨hg, hb⟩ := p.shunt.divides_assign w.g w.b (a ^ 2)
  have totalG : (w.legOf clocks i p ((w.rawSection p).scale (a ^ 2))).totalG = w.g / a ^ 2 := hg.add
  have totalB : (w.legOf clocks i p ((w.rawSection p).scale (a ^ 2))).totalB = w.b / a ^ 2 := hb.add
  refine ⟨rfl, rfl, totalG, totalB, ?_, ?_⟩
  · rw [totalG]
    exact hg
  · rw [totalB]
    exact hb

end WindingEnd

/-- The same conversion with another reference voltage, each leg changed in scale. -/
def Conversion.refer (u : Kilovolts ℝ) (k : WindingIndex → ℝ)
    (c : Conversion ℝ (ThreeWindingModel ℝ)) : Conversion ℝ (ThreeWindingModel ℝ) :=
  { c with
    model :=
      { c.model with
        ratedUf := u
        legs := WindingIndex.each.map fun i => (c.model.legs.get i).scale (k i) } }

def Policy.withStarVoltage (p : Policy) (v : StarVoltage) : Policy :=
  { p with threeWinding.starVoltage := v }

namespace ThreeWindingEnds

variable {t : ThreeWindingEnds ℝ}

def legRatio (t : ThreeWindingEnds ℝ) (p : ThreeWindingPolicy) (i : WindingIndex) : ℝ :=
  if p.starVoltage ≠ .networkSide ∧ (p.legs.get i).ratioAtStarBus = true then
    (p.starVoltage.select t).value / (t.windings.get i).ratedU.value
  else 1

theorem ratedU_pos (ht : t.check = .ok ()) (i : WindingIndex) :
    0 < (t.windings.get i).ratedU.value := by
  have hpos := (check_eq_ok.1 ht i).ratedU_positive
  rwa [Scalar.isPositive_real, decide_eq_true_eq] at hpos

theorem select_pos (ht : t.check = .ok ()) (v : StarVoltage) : 0 < (v.select t).value := by
  cases v with
  | starBusSide => exact ratedU_pos ht .one
  | networkSide => exact one_pos
  | end1 => exact ratedU_pos ht .one
  | end2 => exact ratedU_pos ht .two
  | end3 => exact ratedU_pos ht .three

def referredLeg (t : ThreeWindingEnds ℝ) (p : Policy) (i : WindingIndex) : LegModel ℝ :=
  (t.windings.get i).legOf p.clocks i (p.threeWinding.legs.get i)
    (((t.windings.get i).rawSection (p.threeWinding.legs.get i)).scale
      (t.legRatio p.threeWinding i ^ 2))

/-- Between accepted windings a ratio can always be moved. -/
theorem leg_exact (ht : t.check = .ok ()) (p : Policy) (i : WindingIndex) :
    t.leg p i = .ok (t.referredLeg p i) := by
  have hsection : (t.windings.get i).legSection (p.threeWinding.starVoltage.select t)
      (p.threeWinding.starVoltage.refersLegs && (p.threeWinding.legs.get i).ratioAtStarBus)
      (p.threeWinding.legs.get i) =
      .ok (((t.windings.get i).rawSection (p.threeWinding.legs.get i)).scale
        (t.legRatio p.threeWinding i ^ 2)) := by
    rw [WindingEnd.legSection, StarVoltage.refersLegs, legRatio]
    simp only [Bool.and_eq_true, decide_eq_true_eq]
    split_ifs with hmoves
    · exact PiSection.relocate_of_pos (div_pos (select_pos ht _) (ratedU_pos ht i)) _ _
    · rw [one_pow, PiSection.scale_one]
      rfl
  rw [leg, hsection]
  rfl

/-- Without rounding the conversion of accepted windings does not fail. -/
theorem convert_exact (ht : t.check = .ok ()) (p : Policy) :
    t.convert p = .ok (t.conversionOf p (WindingIndex.each.map (t.referredLeg p))) := by
  have hlegs : WindingIndex.each.mapM (t.leg p) =
      .ok (WindingIndex.each.map (t.referredLeg p)) := by
    refine WindingIndex.mapM_each_eq_ok.2 fun i => ?_
    rw [PerWinding.get_map, WindingIndex.get_each]
    exact leg_exact ht p i
  rw [convert_of_check ht, hlegs]
  rfl

theorem legRatio_withStarVoltage {v : StarVoltage} {k : WindingIndex} (hv : v.reference? = some k)
    (p : Policy) (i : WindingIndex) :
    t.legRatio (p.withStarVoltage v).threeWinding i =
      if (p.threeWinding.legs.get i).ratioAtStarBus then
        (t.windings.get k).ratedU.value / (t.windings.get i).ratedU.value
      else 1 := by
  have hrefers : v ≠ .networkSide := by
    rintro rfl
    cases hv
  rw [legRatio, ← StarVoltage.select_of_reference? hv t]
  simp only [Policy.withStarVoltage, hrefers, ne_eq, not_false_eq_true, true_and]

/-- Of two references the second one is reached from the first by one more ratio. -/
theorem referredLeg_withStarVoltage (ht : t.check = .ok ()) {v w : StarVoltage}
    {k m : WindingIndex} (hv : v.reference? = some k) (hw : w.reference? = some m) (p : Policy)
    (i : WindingIndex) :
    t.referredLeg (p.withStarVoltage w) i =
      (t.referredLeg (p.withStarVoltage v) i).scale
        (if (p.threeWinding.legs.get i).ratioAtStarBus then
          ((t.windings.get m).ratedU.value / (t.windings.get k).ratedU.value) ^ 2
        else 1) := by
  have hratio : t.legRatio (p.withStarVoltage v).threeWinding i ^ 2 *
      (if (p.threeWinding.legs.get i).ratioAtStarBus then
        ((t.windings.get m).ratedU.value / (t.windings.get k).ratedU.value) ^ 2
      else 1) = t.legRatio (p.withStarVoltage w).threeWinding i ^ 2 := by
    rw [legRatio_withStarVoltage hv, legRatio_withStarVoltage hw]
    split_ifs
    · rw [← mul_pow, mul_comm, div_mul_div_cancel₀ (ratedU_pos ht k).ne']
    · rw [mul_one]
  rw [referredLeg, referredLeg, ← WindingEnd.legOf_scale, PiSection.scale_scale, hratio]
  rfl

/-- Each leg is its winding seen through the reference voltage over its own, where it has a ratio
and the reference is not that of the network side. Another reference winding changes the legs that
have a ratio by the square of one ratio, the reference voltage, and nothing else. -/
theorem convert_refers_legs (ht : t.check = .ok ()) (p : Policy) :
    (∃ c, t.convert p = .ok c ∧ c.model.ratedUf = p.threeWinding.starVoltage.select t ∧
      ∀ i, (c.model.legs.get i).Referred
        (if p.threeWinding.starVoltage ≠ .networkSide ∧
            (p.threeWinding.legs.get i).ratioAtStarBus = true then
          c.model.ratedUf.value / (t.windings.get i).ratedU.value
        else 1)
        (p.threeWinding.legs.get i).shunt (t.windings.get i)) ∧
    ∀ (v w : StarVoltage) (k m : WindingIndex), v.reference? = some k → w.reference? = some m →
      ∃ c, t.convert (p.withStarVoltage v) = .ok c ∧
        t.convert (p.withStarVoltage w) =
          .ok (c.refer (t.windings.get m).ratedU fun i =>
            if (p.threeWinding.legs.get i).ratioAtStarBus then
              ((t.windings.get m).ratedU.value / (t.windings.get k).ratedU.value) ^ 2
            else 1) := by
  refine ⟨⟨_, convert_exact ht p, rfl, fun i => ?_⟩, fun v w k m hv hw => ?_⟩
  · have hleg : (t.conversionOf p (WindingIndex.each.map (t.referredLeg p))).model.legs.get i =
        t.referredLeg p i := by
      change (WindingIndex.each.map (t.referredLeg p)).get i = _
      rw [PerWinding.get_map, WindingIndex.get_each]
    rw [hleg]
    exact WindingEnd.referred_legOf _ _ _ _ _
  · refine ⟨_, convert_exact ht (p.withStarVoltage v), ?_⟩
    have hlegs : t.referredLeg (p.withStarVoltage w) = fun i =>
        (t.referredLeg (p.withStarVoltage v) i).scale _ :=
      funext (referredLeg_withStarVoltage ht hv hw p)
    rw [convert_exact ht, hlegs, ← StarVoltage.select_of_reference? hw t]
    rfl

/-- A leg without series branch, one at the reference voltage and one whose ratio stays, each with
its shunt placed in another way; then the reference moves from winding 2 to winding 1. -/
theorem convert_refers_legs_mixed :
    let winding (r x g b u : ℝ) : WindingEnd ℝ := ⟨r, x, g, b, ⟨u⟩, "B", 0, none, none⟩
    let t : ThreeWindingEnds ℝ :=
      ⟨"T", ⟨winding 0 0 1 2 4, winding 1 2 4 (-8) 2, winding 3 4 5 6 1⟩⟩
    let p : Policy :=
      { threeWinding :=
          ⟨.end2, ⟨⟨true, .networkSide, true⟩, ⟨true, .split, true⟩, ⟨true, .starBusSide, false⟩⟩⟩ }
    ∃ c d, t.convert p = .ok c ∧ t.convert (p.withStarVoltage .end1) = .ok d ∧
      c.model.legs.one.end1.g = 4 ∧ c.model.legs.two.end2.b = -4 ∧ c.model.legs.three.r = 3 ∧
      d.model.legs.one = c.model.legs.one.scale 4 ∧
      d.model.legs.three = c.model.legs.three := by
  intro winding t p
  have hclock : (0 : UInt8) ≤ maxClock := by decide
  have hsound (r x g b : ℝ) {u : ℝ} (hu : 0 < u) : (winding r x g b u).Sound :=
    ⟨rfl, by simpa using hu, rfl, rfl, rfl, rfl, hclock, nofun, nofun⟩
  have ht : t.check = .ok () := by
    refine check_eq_ok.2 fun i => ?_
    cases i with
    | one => exact hsound 0 0 1 2 four_pos
    | two => exact hsound 1 2 4 (-8) two_pos
    | three => exact hsound 3 4 5 6 one_pos
  obtain ⟨⟨c, hc, hu, hlegs⟩, hswitch⟩ := convert_refers_legs ht p
  obtain ⟨c', hc', hd⟩ := hswitch .end2 .end1 .two .one rfl rfl
  obtain rfl : c = c' := Except.ok.inj (hc.symm.trans hc')
  have hends : StarVoltage.end2 ≠ .networkSide := by decide
  have hone : c.model.legs.one.end1.g = 4 := by
    refine ((hlegs .one).placedG.1.trans (hlegs .one).totalG).trans ?_
    rw [hu]
    norm_num [PerWinding.get, StarVoltage.select, t, p, winding, hends]
  have htwo : c.model.legs.two.end1.b + c.model.legs.two.end2.b = -8 := by
    refine (hlegs .two).totalB.trans ?_
    rw [hu]
    norm_num [PerWinding.get, StarVoltage.select, t, p, winding, hends]
  have hhalves : c.model.legs.two.end1.b = c.model.legs.two.end2.b := (hlegs .two).placedB.1
  have hthree : c.model.legs.three.r = 3 := by
    refine (hlegs .three).r.trans ?_
    norm_num [PerWinding.get, t, p, winding]
  have hfactor : ((4 : ℝ) / 2) ^ 2 = 4 := by norm_num
  exact ⟨c, _, hc, hd, hone, by linarith, hthree,
    congrArg (fun k => c.model.legs.one.scale k) hfactor, LegModel.scale_one _⟩

end ThreeWindingEnds

end

end EquivalentCircuit
