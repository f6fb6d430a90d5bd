import EquivalentCircuit.Document.Basic
import EquivalentCircuit.Proofs.Building
import EquivalentCircuit.Proofs.ConvertedTaps
import EquivalentCircuit.Proofs.Product
import EquivalentCircuit.Proofs.TapTables

/-! The neutral position of generated tables. The step at distance zero changes nothing, its index
is that of the neutral position, and a step that changes nothing stays so at its index however tap
changers are combined, moved or negated. -/

namespace EquivalentCircuit

variable {α : Type} [Scalar α]

structure ZeroRules (α : Type) [Scalar α] : Prop where
  zero : Scalar.isZero (0 : α)
  ofInt_zero : Scalar.isZero (Scalar.ofInt 0 : α)
  neg : ∀ {x : α}, Scalar.isZero x → Scalar.isZero (-x)
  add : ∀ {x y : α}, Scalar.isZero x → Scalar.isZero y → Scalar.isZero (x + y)
  mul_left : ∀ {x y : α}, Scalar.isZero x → Scalar.isFinite y → Scalar.isZero (x * y)
  mul_right : ∀ {x y : α}, Scalar.isFinite x → Scalar.isZero y → Scalar.isZero (x * y)
  div : ∀ {x y : α}, Scalar.isZero x → Scalar.isFinite y → ¬ Scalar.isZero y → Scalar.isZero (x / y)
  one_add : ∀ {x : α}, Scalar.isZero x → 1 + x = 1
  one_mul_one : (1 : α) * 1 = 1
  one_div_one : (1 : α) / 1 = 1
  compose_zero : composeDeviation (0 : α) 0 = 0
  two : Scalar.isFinite (Scalar.ofInt 2 : α)
  hundred : Scalar.isFinite (Scalar.ofInt 100 : α) ∧ ¬ Scalar.isZero (Scalar.ofInt 100 : α)
  twoHundred : Scalar.isFinite (Scalar.ofInt 200 : α) ∧ ¬ Scalar.isZero (Scalar.ofInt 200 : α)
  degrees : Scalar.isFinite (Scalar.degreesPerRadian : α)
  radians : ∀ {x : α}, Scalar.isFinite x → Scalar.isFinite (x * Scalar.radiansPerDegree)
  sin : ∀ {x : α}, Scalar.isFinite x → Scalar.isFinite (Scalar.sin x)
  cos : ∀ {x : α}, Scalar.isFinite x → Scalar.isFinite (Scalar.cos x)
  arctan : ∀ {x : α}, Scalar.isZero x → Scalar.isZero (Scalar.arctan x)
  arctan2 : ∀ {y : α}, Scalar.isZero y → Scalar.isZero (Scalar.arctan2 y 1)
  hypotenuse : ∀ {y : α}, Scalar.isZero y → Scalar.hypotenuse 1 y = 1

/-- A table made from its parameters, which are finite. -/
inductive TapTable.Generated : TapTable α → Prop
  | linearRatio (r : StepRange) {increment : α} (h : Scalar.isFinite increment) :
    Generated (.linearRatio r increment)
  | linearPhase (r : StepRange) {increment : α} (h : Scalar.isFinite increment) :
    Generated (.linearPhase r increment)
  | symmetricalPhase (r : StepRange) {increment : α} (h : Scalar.isFinite increment) :
    Generated (.symmetricalPhase r increment)
  | asymmetricalPhase (r : StepRange) {increment connectionAngle : α}
    (h : Scalar.isFinite increment) (ha : Scalar.isFinite connectionAngle) :
    Generated (.asymmetricalPhase r increment connectionAngle)

structure TapStep.IsNeutral (s : TapStep α) : Prop where
  rho : s.rho = 1
  angle : Scalar.isZero s.angle.value
  rdr : s.rdr = 0
  rdx : s.rdx = 0
  rdg : s.rdg = 0
  rdb : s.rdb = 0

def TapChanger.HasNeutral (t : TapChanger α) : Prop := ∃ s, t.neutral? = some s ∧ s.IsNeutral

/-! Steps at distance zero. -/

theorem TapStep.isNeutral_plain {angle : Degrees α} (ha : Scalar.isZero angle.value) :
    (plain 1 angle).IsNeutral :=
  ⟨rfl, ha, rfl, rfl, rfl, rfl⟩

namespace ZeroRules

variable (h : ZeroRules α) {increment : α}
include h

theorem isZero_part (hi : Scalar.isFinite increment) {n : Int}
    (hn : Scalar.isFinite (Scalar.ofInt n : α) ∧ ¬ Scalar.isZero (Scalar.ofInt n : α)) :
    Scalar.isZero (Scalar.ofInt 0 * increment / Scalar.ofInt n) :=
  h.div (h.mul_left h.ofInt_zero hi) hn.1 hn.2

theorem linearRatio_zero (hi : Scalar.isFinite increment) :
    (TapStep.linearRatio increment 0).IsNeutral := by
  rw [TapStep.linearRatio, h.one_add (h.isZero_part hi h.hundred)]
  exact TapStep.isNeutral_plain h.zero

theorem linearPhase_zero (hi : Scalar.isFinite increment) :
    (TapStep.linearPhase increment 0).IsNeutral :=
  TapStep.isNeutral_plain (h.mul_left h.ofInt_zero hi)

theorem symmetricalPhase_zero (hi : Scalar.isFinite increment) :
    (TapStep.symmetricalPhase increment 0).IsNeutral := by
  have hhalf := h.arctan (h.isZero_part hi h.twoHundred)
  exact TapStep.isNeutral_plain (h.mul_left (h.mul_right h.two hhalf) h.degrees)

theorem asymmetricalPhase_zero (hi : Scalar.isFinite increment) {connection : Degrees α}
    (hc : Scalar.isFinite connection.value) :
    (TapStep.asymmetricalPhase increment connection 0).IsNeutral := by
  have hdu := h.isZero_part hi h.hundred
  have hdx := h.one_add (h.mul_left hdu (h.cos (h.radians hc)))
  have hdy := h.mul_left hdu (h.sin (h.radians hc))
  unfold TapStep.asymmetricalPhase
  dsimp only [Degrees.toRadians]
  rw [hdx, h.hypotenuse hdy, h.one_div_one]
  exact TapStep.isNeutral_plain (h.mul_left (h.arctan2 hdy) h.degrees)

/-! Steps that change nothing together, from the other end or negated. -/

variable {s t : TapStep α}

theorem isNeutral_compose (hs : s.IsNeutral) (ht : t.IsNeutral) : (s.compose t).IsNeutral := by
  refine ⟨?_, h.add hs.angle ht.angle, ?_, ?_, ?_, ?_⟩
  · rw [TapStep.compose, hs.rho, ht.rho, h.one_mul_one]
  · rw [TapStep.compose, hs.rdr, ht.rdr, h.compose_zero]
  · rw [TapStep.compose, hs.rdx, ht.rdx, h.compose_zero]
  · rw [TapStep.compose, hs.rdg, ht.rdg, h.compose_zero]
  · rw [TapStep.compose, hs.rdb, ht.rdb, h.compose_zero]

theorem isNeutral_relocate (hs : s.IsNeutral) : s.relocate.IsNeutral := by
  refine ⟨?_, h.neg hs.angle, hs.rdr, hs.rdx, hs.rdg, hs.rdb⟩
  rw [TapStep.relocate, hs.rho, h.one_div_one]

theorem isNeutral_negateAngle (hs : s.IsNeutral) : s.negateAngle.IsNeutral :=
  ⟨hs.rho, h.neg hs.angle, hs.rdr, hs.rdx, hs.rdg, hs.rdb⟩

theorem keptByMoves : KeptByMoves (TapChanger.HasNeutral (α := α)) where
  product := by
    rintro a b ⟨s, hs, hsn⟩ ⟨t, ht, htn⟩
    exact ⟨_, TapChanger.at?_product (w := .neutral) hs ht, h.isNeutral_compose hsn htn⟩
  relocate := by
    rintro t ⟨s, hs, hsn⟩
    exact ⟨_, TapChanger.at?_mapSteps .relocate (w := .neutral) hs, h.isNeutral_relocate hsn⟩
  negateAngles := by
    rintro t ⟨s, hs, hsn⟩
    exact ⟨_, TapChanger.at?_mapSteps .negateAngle (w := .neutral) hs, h.isNeutral_negateAngle hsn⟩

end ZeroRules

/-! The step at the neutral position. -/

theorem TapTable.Generated.isNeutral (h : ZeroRules α) {t : TapTable α} (ht : t.Generated) :
    ∃ g, t.formula? = some g ∧ (g.step 0).IsNeutral := by
  cases ht with
  | linearRatio r hi => exact ⟨_, rfl, h.linearRatio_zero hi⟩
  | linearPhase r hi => exact ⟨_, rfl, h.linearPhase_zero hi⟩
  | symmetricalPhase r hi => exact ⟨_, rfl, h.symmetricalPhase_zero hi⟩
  | asymmetricalPhase r hi ha => exact ⟨_, rfl, h.asymmetricalPhase_zero hi ha⟩

/-- The neutral index of a generated table leads to the step at distance zero. -/
theorem TapChangerSpec.hasNeutral_of_build (h : ZeroRules α) {s : TapChangerSpec α}
    {t : TapChanger α} (hs : s.table.Generated) (hb : s.build = .ok t) : t.HasNeutral := by
  obtain ⟨g, hg, hzero⟩ := hs.isNeutral h
  have hplaces := places_of_build hb
  have hf := TapTable.follows hg
  have hneutral := hplaces.neutral
  rw [hplaces.low, hf.low, hf.neutral] at hneutral
  have hstep := (hplaces.generated g hg).step _ (sound_of_build hb).neutral_lt 0 (by omega)
  exact ⟨_, hstep, hzero⟩

theorem RawEnd.allTaps_of_build {P : TapChanger α → Prop} {e : RawEnd α} {w : WindingEnd α}
    (h : ∀ s ∈ e.specs, ∀ t, s.build = .ok t → P t) (hb : e.build = .ok w) : w.AllTaps P := by
  obtain ⟨hratio, hphase⟩ := forall_mem_specs.1 h
  obtain ⟨ratio, hr, hb⟩ := Checked.bind_eq_ok.1 (build_eq e ▸ hb)
  obtain ⟨phase, hp, hb⟩ := Checked.bind_eq_ok.1 hb
  cases hb
  refine ⟨fun t ht => ?_, fun t ht => ?_⟩
  · obtain ⟨s, hs, hst⟩ := Checked.exists_of_mapM_eq_ok hr t ht
    exact hratio s hs t hst
  · obtain ⟨s, hs, hst⟩ := Checked.exists_of_mapM_eq_ok hp t ht
    exact hphase s hs t hst

theorem RawTwoWinding.hasNeutral (h : ZeroRules α) {p : Policy} {raw : RawTwoWinding α}
    {t : TwoWindingEnds α} {c : Conversion α (TwoWindingModel α)}
    (hs : ∀ e ∈ raw.ends, ∀ s ∈ e.specs, s.table.Generated) (hb : raw.build = .ok t)
    (hc : t.convert p = .ok c) : ∀ u ∈ c.model.taps, u.tap.HasNeutral := by
  have hbuild {e : RawEnd α} (he : e ∈ raw.ends) (s) (hse : s ∈ e.specs) (u)
      (hu : TapChangerSpec.build s = .ok u) : u.HasNeutral :=
    TapChangerSpec.hasNeutral_of_build h (hs e he s hse) hu
  obtain ⟨h1, h2⟩ := forall_mem_ends.1 fun e he => hbuild (e := e) he
  obtain ⟨-, hb1, hb2, -⟩ := build_eq_ok.1 hb
  exact TwoWindingEnds.forall_mem_taps h.keptByMoves (RawEnd.allTaps_of_build h1 hb1)
    (RawEnd.allTaps_of_build h2 hb2) hc

theorem RawThreeWinding.hasNeutral (h : ZeroRules α) {p : Policy} {raw : RawThreeWinding α}
    {t : ThreeWindingEnds α} {c : Conversion α (ThreeWindingModel α)}
    (hs : ∀ e ∈ raw.windings, ∀ s ∈ e.specs, s.table.Generated) (hb : raw.build = .ok t)
    (hc : t.convert p = .ok c) : ∀ u ∈ c.model.taps, u.tap.HasNeutral := by
  obtain ⟨w, hw, -⟩ := shown_of_build hb
  obtain ⟨-, he, -⟩ := (build_eq_ok hw).1 hb
  rw [hw, PerWinding.forall_mem_toList] at hs
  refine ThreeWindingEnds.forall_mem_taps h.keptByMoves (fun i => ?_) hc
  exact RawEnd.allTaps_of_build
    (fun s hsi _ hu => TapChangerSpec.hasNeutral_of_build h (hs i s hsi) hu) (he i)

end EquivalentCircuit
