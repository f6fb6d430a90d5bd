import Mathlib.Data.List.Forall2
import Mathlib.Data.Option.Basic
import EquivalentCircuit.Proofs.ConversionIssues
import EquivalentCircuit.Proofs.FrozenConversion
import EquivalentCircuit.Proofs.MachineSign

/-! What negating phase shifts changes. Negation commutes with moving a tap changer to the other end
and, up to the sign of zero, with combining two of them; so a converted transformer is the same but
for the sign of the angles of its phase tap changer. -/

namespace EquivalentCircuit

/-- The step with the opposite angle; the two zeros are one number. -/
structure TapStep.Flipped (s u : TapStep Float) : Prop where
  angle : Scalar.equal u.angle.value (-s.angle.value)
  rest : u = { s with angle := u.angle }

structure TapChanger.Flipped (t u : TapChanger Float) : Prop where
  steps : List.Forall₂ TapStep.Flipped t.steps u.steps
  rest : u = { t with steps := u.steps }

structure TwoWindingModel.Flipped (m n : TwoWindingModel Float) : Prop where
  phase : Option.Rel TapChanger.Flipped m.end1.phaseTapChanger n.end1.phaseTapChanger
  rest : n = { m with end1.phaseTapChanger := n.end1.phaseTapChanger }

namespace TapStep

variable {s t : TapStep Float}

theorem flipped_negateAngle (h : (view s.angle.value).isNaN = false) :
    s.Flipped s.negateAngle where
  angle := by
    have hview : view s.negateAngle.angle.value = (view s.angle.value).neg := view_neg _
    refine equal_self ?_
    rw [hview, isNaN_neg]
    exact h
  rest := rfl

theorem flipped_compose (hs : s.angle.isFinite) (ht : t.angle.isFinite) :
    (s.compose t).Flipped (s.negateAngle.compose t.negateAngle) where
  angle := equal_neg_add_neg hs ht
  rest := rfl

theorem Flipped.symm (h : s.Flipped t) : t.Flipped s where
  angle := equal_neg_comm h.angle
  rest := by
    rw [h.rest]

end TapStep

namespace TapChanger

variable {a b t u : TapChanger Float}

/-- The angles are numbers, if only infinite ones. -/
def HasAngles (t : TapChanger Float) : Prop := ∀ s ∈ t.steps, (view s.angle.value).isNaN = false

def FiniteAngles (t : TapChanger Float) : Prop := ∀ s ∈ t.steps, s.angle.isFinite

theorem FiniteAngles.hasAngles (h : t.FiniteAngles) : t.HasAngles :=
  fun s hs => isNaN_of_isFinite (h s hs)

theorem Sound.finiteAngles (h : t.Sound) : t.FiniteAngles := fun s hs => (h.steps s hs).angle

theorem FiniteAngles.relocate (h : t.FiniteAngles) : t.relocate.FiniteAngles := by
  intro s hs
  obtain ⟨r, hr, rfl⟩ := List.mem_map.1 hs
  exact (isFinite_neg_iff _).2 (h r hr)

theorem HasAngles.relocate (h : t.HasAngles) : t.relocate.HasAngles := by
  intro s hs
  obtain ⟨r, hr, rfl⟩ := List.mem_map.1 hs
  have hview : view r.relocate.angle.value = (view r.angle.value).neg := view_neg _
  rw [hview, isNaN_neg]
  exact h r hr

theorem hasAngles_product (ha : a.FiniteAngles) (hb : b.FiniteAngles) : (product a b).HasAngles :=
  forall_mem_product.2 fun s hs r hr => isNaN_add (ha s hs) (hb r hr)

theorem flipped_negateAngles (h : t.HasAngles) : t.Flipped t.negateAngles where
  steps := List.forall₂_map_right_iff.2
    (List.forall₂_same.2 fun s hs => TapStep.flipped_negateAngle (h s hs))
  rest := rfl

/-- Negating both factors negates the product. -/
theorem flipped_product (ha : a.FiniteAngles) (hb : b.FiniteAngles) :
    (product a b).Flipped (product a.negateAngles b.negateAngles) where
  steps := by
    have hnegated {t : TapChanger Float} (h : t.FiniteAngles) :
        List.Forall₂ (fun s u : TapStep Float => s.angle.isFinite ∧ u = s.negateAngle)
          t.steps t.negateAngles.steps :=
      List.forall₂_map_right_iff.2 (List.forall₂_same.2 fun s hs => ⟨h s hs, rfl⟩)
    refine List.rel_flatMap (hnegated ha) fun s u hs => ?_
    refine List.rel_map (fun r v hr => ?_) (hnegated hb)
    rw [hs.2, hr.2]
    exact TapStep.flipped_compose hs.1 hr.1
  rest := by
    simp only [product, negateAngles, keptRegulation, isRegulating, List.length_map]

theorem Flipped.symm (h : t.Flipped u) : u.Flipped t where
  steps := h.steps.flip.imp fun _ _ => TapStep.Flipped.symm
  rest := by
    rw [h.rest]

end TapChanger

namespace TapSlots

variable {s : TapSlots Float}

/-- Tap changers with angles, which are finite where two of them are still to be combined. -/
structure Movable (s : TapSlots Float) : Prop where
  phase1 : ∀ t ∈ s.phase1, t.HasAngles
  phase2 : ∀ t ∈ s.phase2, t.HasAngles
  both : ∀ a ∈ s.phase1, ∀ b ∈ s.phase2, a.FiniteAngles ∧ b.FiniteAngles

theorem hasAngles_combine {a b : Option (TapChanger Float)} (ha : ∀ t ∈ a, t.FiniteAngles)
    (hb : ∀ t ∈ b, t.FiniteAngles) : ∀ t ∈ TapChanger.combine a b, t.HasAngles :=
  TapChanger.forall_mem_combine (fun _ h => h.hasAngles) (fun _ h => h.hasAngles)
    (fun _ _ => TapChanger.hasAngles_product) ha hb

theorem movable_place (h1 : ∀ t ∈ s.phase1, t.FiniteAngles) (h2 : ∀ t ∈ s.phase2, t.FiniteAngles)
    (side : Option Side) : (s.place side).Movable := by
  match side with
  | none =>
    exact ⟨fun t ht => (h1 t ht).hasAngles, fun t ht => (h2 t ht).hasAngles,
      fun a ha b hb => ⟨h1 a ha, h2 b hb⟩⟩
  | some .end1 =>
    exact ⟨hasAngles_combine h1 h2, (fun _ h => nomatch h), (fun _ _ _ h => nomatch h)⟩
  | some .end2 => exact ⟨(fun _ h => nomatch h), hasAngles_combine h2 h1, (fun _ h => nomatch h)⟩

/-- Negation commutes with the move to end1. -/
theorem Movable.phase_flipped (h : s.Movable) :
    Option.Rel TapChanger.Flipped s.phase s.negatePhase.phase := by
  obtain ⟨ratio1, phase1, ratio2, phase2⟩ := s
  cases phase1 with
  | none =>
    cases phase2 with
    | none => exact .none
    | some b =>
      have hb := TapChanger.flipped_negateAngles (h.phase2 b rfl).relocate
      rw [← TapChanger.relocate_negateAngles] at hb
      exact .some hb
  | some a =>
    cases phase2 with
    | none => exact .some (TapChanger.flipped_negateAngles (h.phase1 a rfl))
    | some b =>
      obtain ⟨ha, hb⟩ := h.both a rfl b rfl
      have hab := TapChanger.flipped_product ha hb.relocate
      rw [← TapChanger.relocate_negateAngles] at hab
      exact .some hab

end TapSlots

theorem flipped_symm {a b : Option (TapChanger Float)} (h : Option.Rel TapChanger.Flipped a b) :
    Option.Rel TapChanger.Flipped b a := by
  cases h with
  | none => exact .none
  | some h => exact .some h.symm

theorem ControlRecord.ofTapChanger_flipped {kind : TapChangerKind} {winding : Option WindingIndex}
    {a b : Option (TapChanger Float)} (h : Option.Rel TapChanger.Flipped a b) :
    ofTapChanger kind winding b = ofTapChanger kind winding a := by
  cases h with
  | none => rfl
  | some h =>
    rw [h.rest]
    rfl

def TwoWindingPolicy.flipSign (p : TwoWindingPolicy) : TwoWindingPolicy :=
  { p with phaseNegate := !p.phaseNegate }

def Policy.flipSign (p : Policy) : Policy := { p with twoWinding := p.twoWinding.flipSign }

namespace TwoWindingEnds

section Placement

variable (t : TwoWindingEnds Float) (p : TwoWindingPolicy)

theorem phase_flipSign {t : TwoWindingEnds Float} (ht : t.check = .ok ()) :
    Option.Rel TapChanger.Flipped (t.placedSlots p).phase (t.placedSlots p.flipSign).phase := by
  obtain ⟨h1, h2⟩ := check_eq_ok.1 ht
  have hplace := TapSlots.movable_place (s := t.slots) (fun a ha => (h1.phase a ha).finiteAngles)
    (fun a ha => (h2.phase a ha).finiteAngles) (p.taps.target? t.reactanceFree1)
  unfold placedSlots TwoWindingPolicy.flipSign
  cases p.phaseNegate with
  | false => exact hplace.phase_flipped
  | true => exact flipped_symm hplace.phase_flipped

theorem ratio_flipSign : (t.placedSlots p.flipSign).ratio = (t.placedSlots p).ratio := by
  unfold placedSlots TwoWindingPolicy.flipSign
  cases p.phaseNegate <;> rfl

theorem moveConflicts_flipSign :
    (t.placedSlots p.flipSign).moveConflicts = (t.placedSlots p).moveConflicts := by
  unfold placedSlots TwoWindingPolicy.flipSign
  cases p.phaseNegate with
  | false => exact TapSlots.moveConflicts_negatePhase _
  | true => exact (TapSlots.moveConflicts_negatePhase _).symm

end Placement

theorem modelOf_flipped {t : TwoWindingEnds Float} (ht : t.check = .ok ()) (p : Policy)
    (s : PiSection Float) : (t.modelOf p s).Flipped (t.modelOf p.flipSign s) where
  phase := phase_flipSign p.twoWinding ht
  rest := by
    rw [modelOf, modelOf, Policy.flipSign, ratio_flipSign]
    rfl

theorem controls_flipped {m n : TwoWindingModel Float} (h : m.Flipped n) :
    ControlRecord.ofTwoWinding n = ControlRecord.ofTwoWinding m := by
  rw [ControlRecord.ofTwoWinding, ControlRecord.ofTwoWinding,
    ControlRecord.ofTapChanger_flipped h.phase, h.rest]

theorem diagnostics_flipSign (t : TwoWindingEnds Float) (p : Policy) :
    t.diagnostics p.flipSign = t.diagnostics p := by
  rw [diagnostics, diagnostics, Policy.flipSign, moveConflicts_flipSign]
  rfl

/-- Under two policies that differ in the sign of phase shifts the conversion fails for the same
reason, or gives the same but for the sign of the angles of the phase tap changer. -/
theorem convert_phaseNegate (t : TwoWindingEnds Float) (p : Policy) :
    Checked.Alike (Conversion.Alike TwoWindingModel.Flipped) (t.convert p)
      (t.convert { p with twoWinding.phaseNegate := !p.twoWinding.phaseNegate }) := by
  change Checked.Alike _ _ (t.convert p.flipSign)
  cases ht : t.check with
  | error e =>
    rw [convert_eq, convert_eq, ht]
    exact .error e
  | ok _ =>
    have hsection : t.movedSection p.flipSign.twoWinding = t.movedSection p.twoWinding := rfl
    rw [convert_of_check ht, convert_of_check ht, hsection]
    refine .of_map (fun s => ?_) _
    have hmodel := modelOf_flipped ht p s
    exact ⟨hmodel, controls_flipped hmodel, t.diagnostics_flipSign p⟩

end TwoWindingEnds

end EquivalentCircuit
