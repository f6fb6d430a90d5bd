import EquivalentCircuit.Proofs.MovedSection
import EquivalentCircuit.Proofs.Acceptance

/-! Where the policy puts the shunts of a two-winding transformer does not matter. Each placement
keeps the total, the move of a ratio divides every shunt by the same number, and the model has only
the total; so without rounding all placements convert to the same thing. -/

namespace EquivalentCircuit
noncomputable section
open Classical

theorem mul_half_add_mul_half (x : ℝ) : x * Scalar.half + x * Scalar.half = x := by
  change x * (1 / 2) + x * (1 / 2) = x
  ring

/-- Conductance and susceptance of both ends in one complex number. -/
def Shunts.total (s : Shunts ℝ) : ℂ := ⟨s.totalG, s.totalB⟩

theorem ShuntPlacement.total_assign (s : Shunts ℝ) (w : ShuntPlacement) :
    (w.assign s).total = s.total := by
  cases w with
  | end1 => exact Complex.ext (add_zero _) (add_zero _)
  | end2 => exact Complex.ext (zero_add _) (zero_add _)
  | ownEnd => rfl
  | split => exact Complex.ext (mul_half_add_mul_half _) (mul_half_add_mul_half _)

namespace PiSection

def totalShunt (p : PiSection ℝ) : ℂ := ⟨p.g1 + p.g2, p.b1 + p.b2⟩

theorem totalShunt_scale (k : ℝ) (p : PiSection ℝ) :
    (p.scale k).totalShunt = p.totalShunt / (k : ℂ) := by
  apply Complex.ext
  · rw [Complex.div_ofReal_re]
    exact (add_div _ _ _).symm
  · rw [Complex.div_ofReal_im]
    exact (add_div _ _ _).symm

end PiSection

namespace TwoWindingEnds

variable {t : TwoWindingEnds ℝ} {p : Policy}

def movedSquare (t : TwoWindingEnds ℝ) (p : TwoWindingPolicy) : ℝ :=
  if t.ratioAtEnd2 p then (t.end2.ratedU.ratio t.end1.ratedU) ^ 2 else 1

theorem ratio_pos (h : t.check = .ok ()) : 0 < t.end2.ratedU.ratio t.end1.ratedU := by
  obtain ⟨h1, h2⟩ := check_eq_ok.1 h
  have hu1 := h1.ratedU_positive
  have hu2 := h2.ratedU_positive
  rw [Scalar.isPositive_real, decide_eq_true_eq] at hu1 hu2
  exact div_pos hu2 hu1

/-- Between accepted ends a ratio can always be moved. -/
theorem movedSection_of_check (h : t.check = .ok ()) (p : TwoWindingPolicy) :
    t.movedSection p = .ok ((t.rawSection p).scale (t.movedSquare p)) := by
  unfold movedSection movedSquare
  split_ifs with hr
  · rw [PiSection.relocate_eq_scale, if_pos (ratio_pos h)]
  · rw [PiSection.scale_one]

/-- Without rounding a conversion fails in its checks or not at all. -/
theorem convert_exact (p : Policy) (t : TwoWindingEnds ℝ) :
    t.convert p = t.check.map fun _ =>
      t.conversionOf p ((t.rawSection p.twoWinding).scale (t.movedSquare p.twoWinding)) := by
  cases h : t.check with
  | error e => rw [convert_eq, h]; rfl
  | ok _ => rw [convert_of_check h, movedSection_of_check h]; rfl

/-- A model has the totals of its section. -/
theorem conversionOf_congr {s s' : PiSection ℝ} (p : Policy) (hr : s.r = s'.r) (hx : s.x = s'.x)
    (htotal : s.totalShunt = s'.totalShunt) : t.conversionOf p s = t.conversionOf p s' := by
  have hg : s.g1 + s.g2 = s'.g1 + s'.g2 := congrArg Complex.re htotal
  have hb : s.b1 + s.b2 = s'.b1 + s'.b2 := congrArg Complex.im htotal
  have hm : t.modelOf p s = t.modelOf p s' := by
    simp only [modelOf, hr, hx, hg, hb]
  rw [conversionOf, conversionOf, hm]

theorem totalShunt_rawSection (t : TwoWindingEnds ℝ) (p : TwoWindingPolicy) :
    (t.rawSection p).totalShunt = ⟨t.end1.g, t.end1.b⟩ + ⟨t.end2.g, t.end2.b⟩ :=
  p.shunt.total_assign t.rawShunts

/-- Every shunt placement gives the same conversion or the same fault. The shunt of the model is
the sum of those of both ends, divided by the square of the ratio that has moved; this needs no
series branch. -/
theorem convert_shunt_placement (t : TwoWindingEnds ℝ) (p : Policy) :
    (∀ w : ShuntPlacement, t.convert { p with twoWinding.shunt := w } = t.convert p) ∧
      ∀ c, t.convert p = .ok c →
        (⟨c.model.end1.g, c.model.end1.b⟩ : ℂ) =
          if t.ratioAtEnd2 p.twoWinding then
            (⟨t.end1.g, t.end1.b⟩ + ⟨t.end2.g, t.end2.b⟩) /
              ((t.end2.ratedU.value / t.end1.ratedU.value : ℝ) : ℂ) ^ 2
          else ⟨t.end1.g, t.end1.b⟩ + ⟨t.end2.g, t.end2.b⟩ := by
  refine ⟨fun w => ?_, fun c hc => ?_⟩
  · rw [convert_exact, convert_exact]
    congr 1
    funext _
    -- nothing else in the conversion reads the placement
    refine conversionOf_congr p rfl rfl ?_
    rw [PiSection.totalShunt_scale, PiSection.totalShunt_scale, totalShunt_rawSection,
      totalShunt_rawSection]
    rfl
  · rw [convert_exact, Checked.map_eq_ok] at hc
    obtain ⟨_, -, rfl⟩ := hc
    change ((t.rawSection p.twoWinding).scale (t.movedSquare p.twoWinding)).totalShunt = _
    rw [PiSection.totalShunt_scale, totalShunt_rawSection, movedSquare]
    split_ifs with hr
    · rw [Complex.ofReal_pow]
      rfl
    · rw [Complex.ofReal_one, div_one]

/-- Shunts on both sides of a ratio of one half and no series branch. -/
theorem convert_shunt_placement_no_series :
    let t : TwoWindingEnds ℝ :=
      ⟨"T", ⟨0, 0, 1, 2, ⟨2⟩, "A", 0, none, none⟩, ⟨0, 0, 3, -4, ⟨1⟩, "B", 0, none, none⟩⟩
    let p : Policy := { twoWinding := { structuralRatio := .end2 } }
    ∃ c, t.convert p = .ok c ∧ t.convert { p with twoWinding.shunt := .split } = .ok c ∧
      (⟨c.model.end1.g, c.model.end1.b⟩ : ℂ) = ⟨16, -8⟩ := by
  intro t p
  have ht : t.check = .ok () := by
    refine check_eq_ok.2 ⟨⟨rfl, ?_, rfl, rfl, rfl, rfl, by decide, nofun, nofun⟩,
      ⟨rfl, ?_, rfl, rfl, rfl, rfl, by decide, nofun, nofun⟩⟩
    · simp [t]
    · simp [t]
  have hc := convert_of_check (p := p) ht
  rw [movedSection_of_check ht] at hc
  obtain ⟨hplace, hshunt⟩ := convert_shunt_placement t p
  have hr : t.ratioAtEnd2 p.twoWinding = true := by
    simp [ratioAtEnd2, Quantity.equal, t, p]
  refine ⟨_, hc, (hplace .split).trans hc, ?_⟩
  rw [hshunt _ hc, if_pos hr, ← Complex.ofReal_pow]
  apply Complex.ext
  · rw [Complex.div_ofReal_re]
    norm_num [t]
  · rw [Complex.div_ofReal_im]
    norm_num [t]

end TwoWindingEnds

end

end EquivalentCircuit
