import EquivalentCircuit.Proofs.MachinePhasor
import EquivalentCircuit.Transformer.PiSection

/-! When the section after a moved ratio is finite. The conditions are on the exact results met on
the way, and each of them is needed: nothing but the last inverse turns an overflow into a number
again. -/

namespace EquivalentCircuit
namespace PiSection

structure IsFinite {α : Type} [Scalar α] (p : PiSection α) : Prop where
  series : p.series.IsFinite
  shunt1 : p.shunt1.IsFinite
  shunt2 : p.shunt2.IsFinite

/-- The entry of the admittance matrix between the ends. -/
def y12 (a : Phasor Float) (p : PiSection Float) : Phasor Float := -p.series.inv / a

def movedSeries (a : Phasor Float) (p : PiSection Float) : Phasor Float := -p.y12 a / a.conj

def movedShunt (a : Phasor Float) (p : PiSection Float) (s : Phasor Float) : Phasor Float :=
  (s + p.series.inv).scaleDown a.normSq - p.movedSeries a

theorem relocateSeries_eq (a : Phasor Float) (p : PiSection Float) :
    p.relocateSeries a =
      ofPhasors (p.movedSeries a).inv (p.movedShunt a p.shunt1) (p.movedShunt a p.shunt2) :=
  rfl

/-- What the series branch needs to survive the move: its impedance is large enough to be inverted,
the ratio can be squared, and the admittance stays in range on the way to end1. -/
structure SeriesFits (a : Phasor Float) (p : PiSection Float) : Prop where
  impedance : p.series.Visible
  ratio : a.Scales
  y12Numerator : (-p.series.inv).NumeratorFits a
  y12 : ((-p.series.inv).numerator a).ScaleFits a.normSq
  numerator : (-p.y12 a).NumeratorFits a.conj
  quotient : ((-p.y12 a).numerator a.conj).ScaleFits a.normSq
  admittance : (p.movedSeries a).Visible

/-- What a shunt needs: the diagonal entry with it, that entry scaled and the difference from the
moved series admittance stay in range. -/
structure ShuntFits (a : Phasor Float) (p : PiSection Float) (s : Phasor Float) : Prop where
  sumRe : Fits (value s.re + value p.series.inv.re)
  sumIm : Fits (value s.im + value p.series.inv.im)
  scale : (s + p.series.inv).ScaleFits a.normSq
  differenceRe : Fits (value ((s + p.series.inv).scaleDown a.normSq).re - value (p.movedSeries a).re)
  differenceIm : Fits (value ((s + p.series.inv).scaleDown a.normSq).im - value (p.movedSeries a).im)

variable {a : Phasor Float} {p : PiSection Float}

theorem isFinite_inv_movedSeries :
    (p.movedSeries a).inv.IsFinite ↔ p.series.IsFinite ∧ p.SeriesFits a := by
  have hs : p.movedSeries a = ((-p.y12 a).numerator a.conj).scaleDown a.normSq := by
    rw [movedSeries, Phasor.div_eq_scaleDown, Phasor.normSq_conj]
  rw [Phasor.isFinite_inv]
  apply Iff.intro
  · rintro ⟨hfin, hvis⟩
    rw [hs, Phasor.isFinite_scaleDown] at hfin
    obtain ⟨hnum, ⟨hn, h0, hquot⟩ | hinf⟩ := hfin
    · obtain ⟨h12, hconj, hnumFits⟩ := Phasor.isFinite_numerator.1 hnum
      rw [Phasor.isFinite_neg, y12, Phasor.div_eq_scaleDown, Phasor.isFinite_scaleDown] at h12
      obtain ⟨hnum12, ⟨-, -, h12⟩ | hinf⟩ := h12
      · obtain ⟨hy, ha, h12Num⟩ := Phasor.isFinite_numerator.1 hnum12
        obtain ⟨hz, hz'⟩ := Phasor.isFinite_inv.1 (Phasor.isFinite_neg.1 hy)
        exact ⟨hz, hz', Phasor.scales_iff.2 ⟨hn, h0⟩, h12Num, h12, hnumFits, hquot, hvis⟩
      · exact absurd hn hinf.not_finite
    · rw [hs] at hvis
      exact absurd hvis (Phasor.not_visible_scaleDown hnum hinf)
  · rintro ⟨hz, h⟩
    obtain ⟨hn, h0⟩ := Phasor.scales_iff.1 h.ratio
    have hy : (-p.series.inv).IsFinite :=
      Phasor.isFinite_neg.2 (Phasor.isFinite_inv.2 ⟨hz, h.impedance⟩)
    have h12 : (p.y12 a).IsFinite := by
      rw [y12, Phasor.div_eq_scaleDown, Phasor.isFinite_scaleDown, Phasor.isFinite_numerator]
      exact ⟨⟨hy, h.ratio.isFinite, h.y12Numerator⟩, .inl ⟨hn, h0, h.y12⟩⟩
    have hnum : ((-p.y12 a).numerator a.conj).IsFinite := by
      rw [Phasor.isFinite_numerator, Phasor.isFinite_neg, Phasor.isFinite_conj]
      exact ⟨h12, h.ratio.isFinite, h.numerator⟩
    refine ⟨?_, h.admittance⟩
    rw [hs]
    exact Phasor.isFinite_scaleDown.2 ⟨hnum, .inl ⟨hn, h0, h.quotient⟩⟩

/-- With the series branch in range, so is a shunt whose own results are. -/
theorem isFinite_movedShunt {s : Phasor Float} (hz : p.series.IsFinite) (h : p.SeriesFits a) :
    (p.movedShunt a s).IsFinite ↔ s.IsFinite ∧ p.ShuntFits a s := by
  obtain ⟨hn, h0⟩ := Phasor.scales_iff.1 h.ratio
  have hy := Phasor.isFinite_inv.2 ⟨hz, h.impedance⟩
  have hseries := (Phasor.isFinite_inv.1 (isFinite_inv_movedSeries.2 ⟨hz, h⟩)).1
  apply Iff.intro
  · rintro ⟨hr, hi⟩
    obtain ⟨hqr, -, hdr⟩ := isFinite_sub.1 hr
    obtain ⟨hqi, -, hdi⟩ := isFinite_sub.1 hi
    obtain ⟨hsum, ⟨-, -, hscale⟩ | hinf⟩ := Phasor.isFinite_scaleDown.1 ⟨hqr, hqi⟩
    · obtain ⟨hsr, -, hsumr⟩ := isFinite_add.1 hsum.re
      obtain ⟨hsi, -, hsumi⟩ := isFinite_add.1 hsum.im
      exact ⟨⟨hsr, hsi⟩, hsumr, hsumi, hscale, hdr, hdi⟩
    · exact absurd hn hinf.not_finite
  · rintro ⟨hs, hf⟩
    have hsum : (s + p.series.inv).IsFinite :=
      ⟨isFinite_add.2 ⟨hs.re, hy.re, hf.sumRe⟩, isFinite_add.2 ⟨hs.im, hy.im, hf.sumIm⟩⟩
    have hq := Phasor.isFinite_scaleDown.2 ⟨hsum, .inl ⟨hn, h0, hf.scale⟩⟩
    exact ⟨isFinite_sub.2 ⟨hq.re, hseries.re, hf.differenceRe⟩,
      isFinite_sub.2 ⟨hq.im, hseries.im, hf.differenceIm⟩⟩

theorem isFinite_relocateSeries :
    (p.relocateSeries a).IsFinite ↔
      p.IsFinite ∧ p.SeriesFits a ∧ p.ShuntFits a p.shunt1 ∧ p.ShuntFits a p.shunt2 := by
  rw [relocateSeries_eq]
  apply Iff.intro
  · rintro ⟨hz, h1, h2⟩
    obtain ⟨hz, hs⟩ := isFinite_inv_movedSeries.1 hz
    obtain ⟨hs1, hf1⟩ := (isFinite_movedShunt hz hs).1 h1
    obtain ⟨hs2, hf2⟩ := (isFinite_movedShunt hz hs).1 h2
    exact ⟨⟨hz, hs1, hs2⟩, hs, hf1, hf2⟩
  · rintro ⟨⟨hz, hs1, hs2⟩, hs, hf1, hf2⟩
    exact ⟨isFinite_inv_movedSeries.2 ⟨hz, hs⟩, (isFinite_movedShunt hz hs).2 ⟨hs1, hf1⟩,
      (isFinite_movedShunt hz hs).2 ⟨hs2, hf2⟩⟩

/-- What the shunts need where there is no series branch. -/
def DecoupledFits (a : Phasor Float) (p : PiSection Float) : Prop :=
  a.Scales ∧ p.shunt1.ScaleFits a.normSq ∧ p.shunt2.ScaleFits a.normSq ∨ IsInfinite a.normSq

theorem isFinite_relocateShunts :
    (p.relocateShunts a).IsFinite ↔ p.shunt1.IsFinite ∧ p.shunt2.IsFinite ∧ p.DecoupledFits a := by
  have hzero : (⟨0, 0⟩ : Phasor Float).IsFinite := ⟨rfl, rfl⟩
  rw [DecoupledFits, Phasor.scales_iff]
  apply Iff.intro
  · rintro ⟨-, h1, h2⟩
    obtain ⟨hs1, h1⟩ := Phasor.isFinite_scaleDown.1 h1
    obtain ⟨hs2, h2⟩ := Phasor.isFinite_scaleDown.1 h2
    refine ⟨hs1, hs2, ?_⟩
    rcases h1 with ⟨hn, h0, h1⟩ | hinf
    · rcases h2 with ⟨-, -, h2⟩ | hinf
      · exact .inl ⟨⟨hn, h0⟩, h1, h2⟩
      · exact .inr hinf
    · exact .inr hinf
  · rintro ⟨hs1, hs2, ⟨⟨hn, h0⟩, h1, h2⟩ | hinf⟩
    · exact ⟨hzero, Phasor.isFinite_scaleDown.2 ⟨hs1, .inl ⟨hn, h0, h1⟩⟩,
        Phasor.isFinite_scaleDown.2 ⟨hs2, .inl ⟨hn, h0, h2⟩⟩⟩
    · exact ⟨hzero, Phasor.isFinite_scaleDown.2 ⟨hs1, .inr hinf⟩,
        Phasor.isFinite_scaleDown.2 ⟨hs2, .inr hinf⟩⟩

def MoveFits (a : Phasor Float) (p : PiSection Float) : Prop :=
  if p.series.isZero then p.DecoupledFits a
  else p.SeriesFits a ∧ p.ShuntFits a p.shunt1 ∧ p.ShuntFits a p.shunt2

theorem isFinite_relocateBy : (p.relocateBy a).IsFinite ↔ p.IsFinite ∧ p.MoveFits a := by
  unfold relocateBy MoveFits
  split_ifs with h
  · have hz : p.series.IsFinite := by
      rw [Phasor.isZero, Bool.and_eq_true] at h
      exact ⟨(isZero_iff.1 h.1).1, (isZero_iff.1 h.2).1⟩
    rw [isFinite_relocateShunts]
    exact ⟨fun ⟨h1, h2, h⟩ => ⟨⟨hz, h1, h2⟩, h⟩, fun ⟨⟨_, h1, h2⟩, h⟩ => ⟨h1, h2, h⟩⟩
  · exact isFinite_relocateSeries

/-- The ratio that leaves a section as it is. -/
def isUnitRatio {α : Type} [Scalar α] (magnitude : α) (angle : Degrees α) : Bool :=
  Scalar.equal magnitude 1 && Scalar.isZero angle.value

theorem isFinite_relocate {magnitude : Float} {angle : Degrees Float} {q : PiSection Float}
    (h : p.relocate magnitude angle = .ok q) :
    q.IsFinite ↔ p.IsFinite ∧
      (isUnitRatio magnitude angle = false →
        p.MoveFits (.ofPolar magnitude angle.toRadians.value)) := by
  have hr : p.relocate magnitude angle =
      if !Scalar.isFinite magnitude || !Scalar.isPositive magnitude || !angle.isFinite then
        .error ⟨"structural ratio", .relocation magnitude angle⟩
      else if isUnitRatio magnitude angle then .ok p
      else .ok (p.relocateBy (.ofPolar magnitude angle.toRadians.value)) := rfl
  rw [hr] at h
  split_ifs at h with h1 h2
  · cases h
    simp [h2]
  · cases h
    rw [isFinite_relocateBy]
    simp [h2]

end PiSection
end EquivalentCircuit
