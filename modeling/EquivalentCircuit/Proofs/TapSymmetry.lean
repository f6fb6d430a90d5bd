import Mathlib.Data.List.Forall2
import EquivalentCircuit.Proofs.ConversionIssues
import EquivalentCircuit.Proofs.RowMajor

/-! Symmetries of combining. Moving a tap changer to the other end and flipping its angles both act
step by step, and composing two steps commutes with either. So it does not matter whether tap
changers are moved, or flipped, before or after they are combined. -/

namespace EquivalentCircuit

namespace Degrees

theorem neg_neg_eq (x : Degrees ℝ) : - -x = x :=
  congrArg Quantity.mk (neg_neg x.value)

theorem neg_add_eq (x y : Degrees ℝ) : -(x + y) = -x + -y :=
  congrArg Quantity.mk (neg_add x.value y.value)

end Degrees

namespace TapStep

/-- What no move of a step changes: its deviations and whether its ratio is above zero. -/
structure Alike (s t : TapStep ℝ) : Prop where
  deviation : ∀ d, t.deviation d = s.deviation d
  rho_pos : 0 < t.rho ↔ 0 < s.rho

/-- An action on steps that undoes itself and commutes with composing them. -/
structure Symmetry (f : TapStep ℝ → TapStep ℝ) : Prop where
  involutive : ∀ s : TapStep ℝ, f (f s) = s
  compose : ∀ s t : TapStep ℝ, f (s.compose t) = (f s).compose (f t)
  alike : ∀ s : TapStep ℝ, s.Alike (f s)

/-- In a field the reciprocal of zero is zero, so this needs nothing of the ratios. -/
theorem symmetry_relocate : Symmetry relocate where
  involutive s := by
    apply TapStep.ext
    · exact one_div_one_div s.rho
    · exact Degrees.neg_neg_eq s.angle
    all_goals rfl
  compose s t := by
    apply TapStep.ext
    · exact (one_div_mul_one_div s.rho t.rho).symm
    · exact Degrees.neg_add_eq s.angle t.angle
    all_goals rfl
  alike s := ⟨fun d => by cases d <;> rfl, one_div_pos⟩

theorem symmetry_negateAngle : Symmetry negateAngle where
  involutive s := by
    apply TapStep.ext
    · rfl
    · exact Degrees.neg_neg_eq s.angle
    all_goals rfl
  compose s t := by
    apply TapStep.ext
    · rfl
    · exact Degrees.neg_add_eq s.angle t.angle
    all_goals rfl
  alike s := ⟨fun d => by cases d <;> rfl, Iff.rfl⟩

end TapStep

namespace TapChanger

/-- What no move of a tap changer changes. -/
structure Alike (t u : TapChanger ℝ) : Prop where
  id : u.id = t.id
  lowTapPosition : u.lowTapPosition = t.lowTapPosition
  neutralStep : u.neutralStep = t.neutralStep
  tapPosition : u.tapPosition = t.tapPosition
  regulation : u.regulation = t.regulation
  steps : List.Forall₂ TapStep.Alike t.steps u.steps

/-- An action on tap changers that undoes itself and does not show in how they combine: neither in
the result nor in what is reported. -/
structure Symmetry (f : TapChanger ℝ → TapChanger ℝ) : Prop where
  involutive : ∀ a : Option (TapChanger ℝ), (a.map f).map f = a
  combine : ∀ a b : Option (TapChanger ℝ), (combine a b).map f = combine (a.map f) (b.map f)
  conflicts : ∀ a b : Option (TapChanger ℝ), conflicts (a.map f) (b.map f) = conflicts a b
  alike : ∀ t : TapChanger ℝ, t.Alike (f t)

variable {f : TapStep ℝ → TapStep ℝ}

theorem mapSteps_mapSteps (hf : ∀ s, f (f s) = s) (t : TapChanger ℝ) :
    (t.mapSteps f).mapSteps f = t := by
  simp [mapSteps, Function.comp_def, hf]

theorem mapSteps_product (hf : ∀ s t, f (s.compose t) = (f s).compose (f t))
    (a b : TapChanger ℝ) : (product a b).mapSteps f = product (a.mapSteps f) (b.mapSteps f) := by
  apply TapChanger.ext
  · rfl
  · simp only [product, mapSteps, List.length_map]
  · simp only [product, mapSteps, List.map_flatMap, List.flatMap_map, List.map_map,
      Function.comp_def, hf]
  · simp only [product, mapSteps, List.length_map]
  · simp only [product, mapSteps, List.length_map]
  · rfl

theorem symmetry_mapSteps (hf : TapStep.Symmetry f) : Symmetry (mapSteps f) where
  involutive a := by
    cases a with
    | none => rfl
    | some t => exact congrArg some (mapSteps_mapSteps hf.involutive t)
  combine a b := by
    cases a with
    | none => simp
    | some a =>
      cases b with
      | none => simp
      | some b => exact congrArg some (mapSteps_product hf.compose a b)
  conflicts := conflicts_mapSteps f
  alike t := ⟨rfl, rfl, rfl, rfl, rfl,
    List.forall₂_map_right_iff.2 (List.forall₂_same.2 fun s _ => hf.alike s)⟩

/-- Moving tap changers and flipping their angles are commuting symmetries of combining. -/
theorem relocate_negateAngles_symmetries :
    Symmetry relocate ∧ Symmetry negateAngles ∧
      ∀ a : Option (TapChanger ℝ),
        (a.map negateAngles).map relocate = (a.map relocate).map negateAngles := by
  refine ⟨symmetry_mapSteps TapStep.symmetry_relocate,
    symmetry_mapSteps TapStep.symmetry_negateAngle, fun a => ?_⟩
  cases a with
  | none => rfl
  | some t => exact congrArg some (relocate_negateAngles t)

end TapChanger

end EquivalentCircuit
