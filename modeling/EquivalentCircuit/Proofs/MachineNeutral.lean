import EquivalentCircuit.Proofs.MachineZero
import EquivalentCircuit.Proofs.Neutral

/-! The neutral position on machine numbers. The functions of angles are those of a library of which
only the behaviour at zero is known, so they are parameters here; everything else is computed. -/

namespace EquivalentCircuit

/-- The functions of angles that the arithmetic leaves to a library. -/
structure AngleFunctions where
  sin : Float → Float
  cos : Float → Float
  arctan : Float → Float
  arctan2 : Float → Float → Float

theorem machine_one_mul_one : (1 : Float) * 1 = 1 := by
  decide +kernel

theorem machine_one_div_one : (1 : Float) / 1 = 1 := by
  decide +kernel

theorem machine_compose_zero : composeDeviation (0 : Float) 0 = 0 := by
  decide +kernel

namespace AngleFunctions

/-- Machine numbers with the given functions of angles. -/
@[reducible] def scalar (f : AngleFunctions) : Scalar Float :=
  { instScalarFloat with
    sin := f.sin
    cos := f.cos
    arctan := f.arctan
    arctan2 := f.arctan2 }

def library : AngleFunctions :=
  ⟨Scalar.sin, Scalar.cos, Scalar.arctan, Scalar.arctan2⟩

theorem scalar_library : library.scalar = instScalarFloat := rfl

/-- What is known of the functions: they lead from finite angles to finite numbers, and back from a
zero to a zero angle. -/
structure Lawful (f : AngleFunctions) : Prop where
  sin : ∀ x, Scalar.isFinite x → Scalar.isFinite (f.sin x)
  cos : ∀ x, Scalar.isFinite x → Scalar.isFinite (f.cos x)
  arctan : ∀ x, Scalar.isZero x → Scalar.isZero (f.arctan x)
  arctan2 : ∀ y, Scalar.isZero y → Scalar.isZero (f.arctan2 y 1)

theorem Lawful.zeroRules {f : AngleFunctions} (h : f.Lawful) : @ZeroRules Float f.scalar :=
  let _ := f.scalar
  { zero := isZero_iff_view.2 ⟨_, view_zero⟩
    ofInt_zero := isZero_ofInt_zero
    neg := isZero_neg
    add := isZero_add
    mul_left := isZero_mul_left
    mul_right := isZero_mul_right
    div := isZero_div
    one_add := one_add_eq_one
    one_mul_one := machine_one_mul_one
    one_div_one := machine_one_div_one
    compose_zero := machine_compose_zero
    two := isFinite_two
    hundred := hundred_ne_zero
    twoHundred := twoHundred_ne_zero
    degrees := isFinite_degreesPerRadian
    radians := isFinite_mul_radiansPerDegree
    sin := h.sin _
    cos := h.cos _
    arctan := h.arctan _
    arctan2 := h.arctan2 _
    hypotenuse := hypotenuse_one }

/-- A transformer whose tap changers all have generated tables with finite parameters converts, if
at all, to one whose tap changers do nothing at their neutral positions. -/
theorem convert_neutral {f : AngleFunctions} (hf : f.Lawful) (p : Policy) :
    letI := f.scalar
    (∀ (raw : RawTwoWinding Float) (t : TwoWindingEnds Float)
      (c : Conversion Float (TwoWindingModel Float)),
      (∀ e ∈ raw.ends, ∀ s ∈ e.specs, s.table.Generated) → raw.build = .ok t →
        t.convert p = .ok c → ∀ u ∈ c.model.taps, u.tap.HasNeutral) ∧
    (∀ (raw : RawThreeWinding Float) (t : ThreeWindingEnds Float)
      (c : Conversion Float (ThreeWindingModel Float)),
      (∀ e ∈ raw.windings, ∀ s ∈ e.specs, s.table.Generated) → raw.build = .ok t →
        t.convert p = .ok c → ∀ u ∈ c.model.taps, u.tap.HasNeutral) := by
  constructor
  · intro raw t c hs hb hc
    exact @RawTwoWinding.hasNeutral Float f.scalar hf.zeroRules p raw t c hs hb hc
  · intro raw t c hs hb hc
    exact @RawThreeWinding.hasNeutral Float f.scalar hf.zeroRules p raw t c hs hb hc

/-- Functions that are those of a library at zero, at a right angle, and at a tenth and minus a
tenth where they lead to an angle. -/
def atTenth : AngleFunctions where
  sin x := if Scalar.isZero x then x else 1
  cos x := if Scalar.isZero x then 1 else 6.123233995736766e-17
  arctan x :=
    if Scalar.isZero x then x else if x < 0 then -0.09966865249116204 else 0.09966865249116204
  arctan2 y _ :=
    if Scalar.isZero y then y else if y < 0 then -0.09966865249116204 else 0.09966865249116204

theorem atTenth_lawful : atTenth.Lawful := by
  refine ⟨fun x hx => ?_, fun x _ => ?_, fun x hx => ?_, fun y hy => ?_⟩
  · change Scalar.isFinite (if Scalar.isZero x then x else 1)
    split
    · exact hx
    · decide +kernel
  · change Scalar.isFinite (if Scalar.isZero x then 1 else 6.123233995736766e-17)
    split
    · decide +kernel
    · decide +kernel
  · change Scalar.isZero (if Scalar.isZero x then x else _)
    rwa [if_pos hx]
  · change Scalar.isZero (if Scalar.isZero y then y else _)
    rwa [if_pos hy]

/-- A quadrature booster with tap changers at both ends that meet at end1, and the same windings
with a third one whose tap changers move from the star bus. -/
theorem convert_neutral_quadrature :
    let spec (name : String) (table : TapTable Float) : Option (TapChangerSpec Float) :=
      some ⟨name, table, some 1, none⟩
    let range : StepRange := ⟨-1, 1, 0⟩
    let end1 : RawEnd Float := ⟨1, 10, 0, 0, 110, "1", 0, spec "R" (.linearRatio range 1.25),
      spec "P" (.asymmetricalPhase range 10 90)⟩
    let end2 : RawEnd Float := ⟨1, 10, 0, 0, 110, "2", 0, spec "S" (.linearRatio ⟨1, 3, 2⟩ (-2.5)),
      spec "Q" (.symmetricalPhase range 20)⟩
    let end3 : RawEnd Float := ⟨1, 10, 0, 0, 110, "3", 0, none, spec "T" (.linearPhase range 5)⟩
    let leg : LegPolicy := { tapsAtNetworkSide := false }
    let p : Policy :=
      { twoWinding := { phaseNegate := true }, threeWinding := { legs := ⟨leg, leg, leg⟩ } }
    letI := atTenth.scalar
    (∃ (t : TwoWindingEnds Float) (c : Conversion Float (TwoWindingModel Float)),
      (⟨"A", end1, end2⟩ : RawTwoWinding Float).build = .ok t ∧ t.convert p = .ok c ∧
        c.model.taps.map (·.tap.id) = ["R+S", "P+Q"] ∧
        ∀ u ∈ c.model.taps, u.tap.HasNeutral) ∧
    (∃ (t : ThreeWindingEnds Float) (c : Conversion Float (ThreeWindingModel Float)),
      (⟨"B", [end1, end2, end3]⟩ : RawThreeWinding Float).build = .ok t ∧ t.convert p = .ok c ∧
        c.model.taps.map (·.tap.id) = ["R", "P", "S", "Q", "T"] ∧
        ∀ u ∈ c.model.taps, u.tap.HasNeutral) := by
  intro spec range end1 end2 end3 leg p
  let _ := atTenth.scalar
  have h1 : ∀ s ∈ end1.specs, s.table.Generated :=
    List.forall_mem_cons.2 ⟨.linearRatio _ (by decide +kernel),
      List.forall_mem_singleton.2 (.asymmetricalPhase _ (by decide +kernel) (by decide +kernel))⟩
  have h2 : ∀ s ∈ end2.specs, s.table.Generated :=
    List.forall_mem_cons.2 ⟨.linearRatio _ (by decide +kernel),
      List.forall_mem_singleton.2 (.symmetricalPhase _ (by decide +kernel))⟩
  have h3 : ∀ s ∈ end3.specs, s.table.Generated :=
    List.forall_mem_singleton.2 (.linearPhase _ (by decide +kernel))
  constructor
  · let raw : RawTwoWinding Float := ⟨"A", end1, end2⟩
    have hids : (raw.build >>= fun t => (t.convert p).map fun c => c.model.taps.map (·.tap.id)) =
        .ok ["R+S", "P+Q"] := Checked.eq_ok_of_toOption (by decide +kernel)
    obtain ⟨t, ht, hids⟩ := Checked.bind_eq_ok.1 hids
    obtain ⟨c, hc, hids⟩ := Checked.map_eq_ok.1 hids
    have hspecs : ∀ e ∈ raw.ends, ∀ s ∈ e.specs, s.table.Generated :=
      List.forall_mem_cons.2 ⟨h1, List.forall_mem_singleton.2 h2⟩
    exact ⟨t, c, ht, hc, hids.symm, (convert_neutral atTenth_lawful p).1 raw t c hspecs ht hc⟩
  · let raw : RawThreeWinding Float := ⟨"B", [end1, end2, end3]⟩
    have hids : (raw.build >>= fun t => (t.convert p).map fun c => c.model.taps.map (·.tap.id)) =
        .ok ["R", "P", "S", "Q", "T"] := Checked.eq_ok_of_toOption (by decide +kernel)
    obtain ⟨t, ht, hids⟩ := Checked.bind_eq_ok.1 hids
    obtain ⟨c, hc, hids⟩ := Checked.map_eq_ok.1 hids
    have hspecs : ∀ e ∈ raw.windings, ∀ s ∈ e.specs, s.table.Generated :=
      List.forall_mem_cons.2 ⟨h1, List.forall_mem_cons.2 ⟨h2, List.forall_mem_singleton.2 h3⟩⟩
    exact ⟨t, c, ht, hc, hids.symm, (convert_neutral atTenth_lawful p).2 raw t c hspecs ht hc⟩

end AngleFunctions

end EquivalentCircuit
