import EquivalentCircuit.Proofs.ShuntPlacement
import EquivalentCircuit.Proofs.Frozen

/-! Where the structural ratio of a two-winding transformer is placed. A ratio at end2 has to move
to end1, and all that comes of the move is a change of scale of the converted section. So the three
placements give two models at most, and one if the rated voltages are equal. -/

namespace EquivalentCircuit
noncomputable section

def TwoWindingModel.scale (k : ℝ) (m : TwoWindingModel ℝ) : TwoWindingModel ℝ :=
  { m with
    r := k * m.r
    x := k * m.x
    end1.g := m.end1.g / k
    end1.b := m.end1.b / k }

namespace Conversion

def scale (k : ℝ) (c : Conversion ℝ (TwoWindingModel ℝ)) : Conversion ℝ (TwoWindingModel ℝ) :=
  { c with model := c.model.scale k }

@[simp] theorem scale_one (c : Conversion ℝ (TwoWindingModel ℝ)) : c.scale 1 = c := by
  simp [scale, TwoWindingModel.scale]

end Conversion

def Policy.withRatioAt (p : Policy) (w : RatioPlacement) : Policy :=
  { p with twoWinding.structuralRatio := w }

namespace TwoWindingEnds

variable {t : TwoWindingEnds ℝ}

def squaredRatio (t : TwoWindingEnds ℝ) : ℝ := (t.end2.ratedU.value / t.end1.ratedU.value) ^ 2

theorem squaredRatio_of_equal (ht : t.check = .ok ())
    (hu : t.end1.ratedU.value = t.end2.ratedU.value) : t.squaredRatio = 1 := by
  have hpos := (check_eq_ok.1 ht).2.ratedU_positive
  rw [Scalar.isPositive_real, decide_eq_true_eq] at hpos
  rw [squaredRatio, hu, div_self hpos.ne', one_pow]

/-- Between equal voltages it makes no difference whether a ratio moves. -/
theorem movedSquare_eq (ht : t.check = .ok ()) (p : TwoWindingPolicy) :
    t.movedSquare p =
      if p.structuralRatio = .end2 ∨ p.structuralRatio = .reactanceFree ∧ t.end1.x ≠ 0 then
        t.squaredRatio
      else 1 := by
  unfold movedSquare ratioAtEnd2 reactanceFree1 Quantity.equal
  by_cases hu : t.end1.ratedU.value = t.end2.ratedU.value
  · simp [hu, squaredRatio_of_equal ht hu]
  · cases p.structuralRatio with
    | end1 => simp
    | end2 => simp [hu, squaredRatio, Quantity.ratio]
    | reactanceFree => simp [hu, squaredRatio, Quantity.ratio]

theorem conversionOf_scale (p : Policy) (s : PiSection ℝ) (k : ℝ) :
    t.conversionOf p (s.scale k) = (t.conversionOf p s).scale k := by
  have hmodel : t.modelOf p (s.scale k) = (t.modelOf p s).scale k := by
    simp only [modelOf, PiSection.scale, TwoWindingModel.scale, TwoWindingModel.mk.injEq,
      TwoWindingModel.End1.mk.injEq, and_true, true_and]
    exact ⟨(add_div s.g1 s.g2 k).symm, (add_div s.b1 s.b2 k).symm⟩
  rw [conversionOf, hmodel]
  rfl

/-- Apart from the square that has moved, no part of a conversion reads the placement. -/
theorem convert_withRatioAt (ht : t.check = .ok ()) (p : Policy) (w : RatioPlacement) :
    t.convert (p.withRatioAt w) =
      .ok ((t.conversionOf p (t.rawSection p.twoWinding)).scale
        (if w = .end2 ∨ w = .reactanceFree ∧ t.end1.x ≠ 0 then t.squaredRatio else 1)) := by
  have hsquare := movedSquare_eq ht (p.withRatioAt w).twoWinding
  rw [convert_exact, ht, hsquare, ← conversionOf_scale]
  rfl

/-- With the ratio at end1 the model has the sums of the impedances. With the ratio at end2 it is
the same model seen through the ratio of the rated voltages, with the same controls and diagnostics.
The third placement is one of these two, by the reactance of end1 alone. -/
theorem convert_structuralRatio (ht : t.check = .ok ()) (p : Policy) :
    ∃ c, t.convert (p.withRatioAt .end1) = .ok c ∧
      c.model.r = t.end1.r + t.end2.r ∧ c.model.x = t.end1.x + t.end2.x ∧
      t.convert (p.withRatioAt .end2) =
        .ok (c.scale ((t.end2.ratedU.value / t.end1.ratedU.value) ^ 2)) ∧
      (t.end1.x = 0 →
        t.convert (p.withRatioAt .reactanceFree) = t.convert (p.withRatioAt .end1)) ∧
      (t.end1.x ≠ 0 →
        t.convert (p.withRatioAt .reactanceFree) = t.convert (p.withRatioAt .end2)) ∧
      (t.end1.ratedU = t.end2.ratedU → ∀ w, t.convert (p.withRatioAt w) = .ok c) := by
  refine ⟨t.conversionOf p (t.rawSection p.twoWinding), ?_, rfl, rfl, ?_, fun hx => ?_,
    fun hx => ?_, fun hu w => ?_⟩
  · simp [convert_withRatioAt ht]
  · simp [convert_withRatioAt ht, squaredRatio]
  · simp [convert_withRatioAt ht, hx]
  · simp [convert_withRatioAt ht, hx]
  · simp [convert_withRatioAt ht, squaredRatio_of_equal ht (congrArg Quantity.value hu)]

/-- Ends whose impedances add up to none, of different and of equal voltages, with clocks and a
tap changer, under a policy that touches all of them. -/
theorem convert_structuralRatio_no_series :
    let tap : TapChanger ℝ := ⟨"a", 0, [⟨2, ⟨30⟩, 0, 0, 0, 0⟩], 0, 0, none⟩
    let ends (u x : ℝ) : TwoWindingEnds ℝ :=
      ⟨"T", ⟨1, x, 1, 2, ⟨u⟩, "A", 3, some tap, none⟩, ⟨-1, -x, 3, -4, ⟨1⟩, "B", 5, none, some tap⟩⟩
    let p : Policy := ⟨⟨.reactanceFree, .split, .end1, true⟩, {}, true⟩
    (∃ c d, (ends 2 4).convert (p.withRatioAt .end1) = .ok c ∧
      (ends 2 4).convert (p.withRatioAt .end2) = .ok d ∧
      (ends 2 4).convert (p.withRatioAt .reactanceFree) = .ok d ∧
      c.model.x = 0 ∧ d.model.x = 0 ∧ d.model.end1.g = c.model.end1.g / (1 / 2) ^ 2) ∧
    (ends 2 0).convert (p.withRatioAt .reactanceFree) =
      (ends 2 0).convert (p.withRatioAt .end1) ∧
    ∃ c, ∀ w, (ends 1 4).convert (p.withRatioAt w) = .ok c := by
  intro tap ends p
  have htap : tap.Sound := TapChanger.sound_of_singleton rfl rfl rfl
    ⟨rfl, by simp, rfl, rfl, rfl, rfl, rfl⟩
  have hends {u : ℝ} (x : ℝ) (hu : 0 < u) : (ends u x).check = .ok () := by
    have h3 : (3 : UInt8) ≤ maxClock := by decide
    have h5 : (5 : UInt8) ≤ maxClock := by decide
    have hsome : ∀ v ∈ some tap, v.Sound := by
      rintro _ ⟨⟩
      exact htap
    exact check_eq_ok.2
      ⟨⟨rfl, by simpa using hu, rfl, rfl, rfl, rfl, h3, hsome, nofun⟩,
        ⟨rfl, by simp [ends], rfl, rfl, rfl, rfl, h5, nofun, hsome⟩⟩
  refine ⟨?_, ?_, ?_⟩
  · obtain ⟨c, hc, -, hx, hend2, -, hfree, -⟩ := convert_structuralRatio (hends 4 two_pos) p
    have hx0 : c.model.x = 0 := hx.trans (add_neg_cancel 4)
    exact ⟨c, _, hc, hend2, (hfree four_ne_zero).trans hend2, hx0, mul_eq_zero_of_right _ hx0, rfl⟩
  · obtain ⟨c, -, -, -, -, hfree, -⟩ := convert_structuralRatio (hends 0 two_pos) p
    exact hfree rfl
  · obtain ⟨c, -, -, -, -, -, -, hall⟩ := convert_structuralRatio (hends 4 one_pos) p
    exact ⟨c, hall rfl⟩

end TwoWindingEnds

end

end EquivalentCircuit
