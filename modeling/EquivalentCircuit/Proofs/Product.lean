import EquivalentCircuit.TapChanger.Algebra

/-! How the product of two tap changers is numbered. The step of a pair of steps stands at
`i * width + j`, and so do the neutral and the current position of the product: whatever a position
is, taking it commutes with every operation on tap changers. -/

namespace EquivalentCircuit

attribute [ext] TapStep TapChanger

section Table

variable {β γ δ : Type} (f : β → γ → δ)

/-- All pairs of two tables, the second index running fastest. -/
theorem getElem?_flatMap_map {as : List β} {bs : List γ} {i j : Nat} {a : β} {b : γ}
    (ha : as[i]? = some a) (hb : bs[j]? = some b) :
    (as.flatMap fun a => bs.map (f a))[i * bs.length + j]? = some (f a b) := by
  obtain ⟨hj, -⟩ := List.getElem?_eq_some_iff.1 hb
  induction as generalizing i with
  | nil => simp at ha
  | cons c cs ih =>
    rw [List.flatMap_cons]
    cases i with
    | zero =>
      obtain rfl : c = a := by simpa using ha
      rw [Nat.zero_mul, Nat.zero_add, List.getElem?_append_left (by simpa using hj),
        List.getElem?_map, hb, Option.map_some]
    | succ i =>
      -- the block of the first row is passed
      have hi : (i + 1) * bs.length + j = (bs.map (f c)).length + (i * bs.length + j) := by
        rw [List.length_map, Nat.succ_mul]
        omega
      rw [hi, List.getElem?_append_right (Nat.le_add_right ..), Nat.add_sub_cancel_left]
      exact ih (by simpa using ha)

end Table

inductive Position where
  | neutral
  | current
deriving DecidableEq

namespace TapChanger

variable {α : Type}

def indexOf (w : Position) (t : TapChanger α) : Nat :=
  match w with
  | .neutral => t.neutralStep
  | .current => t.tapPosition

def at? (w : Position) (t : TapChanger α) : Option (TapStep α) :=
  match w with
  | .neutral => t.neutral?
  | .current => t.current?

theorem at?_eq (w : Position) (t : TapChanger α) : t.at? w = t.steps[t.indexOf w]? := by
  cases w <;> rfl

/-- The table changed step by step: moving a tap changer and flipping its angles are such changes. -/
def mapSteps (f : TapStep α → TapStep α) (t : TapChanger α) : TapChanger α :=
  { t with steps := t.steps.map f }

theorem at?_mapSteps (f : TapStep α → TapStep α) {w : Position} {t : TapChanger α} {s : TapStep α}
    (h : t.at? w = some s) : (t.mapSteps f).at? w = some (f s) := by
  rw [at?_eq] at h ⊢
  have hi : (t.mapSteps f).indexOf w = t.indexOf w := by cases w <;> rfl
  rw [hi, mapSteps, List.getElem?_map, h, Option.map_some]

variable [Scalar α]

theorem indexOf_product (w : Position) (a b : TapChanger α) :
    (product a b).indexOf w = a.indexOf w * b.steps.length + b.indexOf w := by
  cases w <;> rfl

theorem at?_product {w : Position} {a b : TapChanger α} {s t : TapStep α} (ha : a.at? w = some s)
    (hb : b.at? w = some t) : (product a b).at? w = some (s.compose t) := by
  rw [at?_eq] at ha hb ⊢
  rw [indexOf_product]
  exact getElem?_flatMap_map TapStep.compose ha hb

@[simp] theorem combine_none (a : Option (TapChanger α)) : combine a none = a := by
  cases a <;> rfl

@[simp] theorem none_combine (a : Option (TapChanger α)) : combine none a = a := by
  cases a <;> rfl

/-- A combination is one of its operands or their product. -/
theorem forall_mem_combine {P Q R : TapChanger α → Prop} (hP : ∀ t, P t → R t)
    (hQ : ∀ t, Q t → R t) (hproduct : ∀ a b, P a → Q b → R (product a b))
    {a b : Option (TapChanger α)} (ha : ∀ t ∈ a, P t) (hb : ∀ t ∈ b, Q t) :
    ∀ t ∈ combine a b, R t := by
  intro t ht
  match a, b with
  | none, none => cases ht
  | some a, none => exact hP t (ha t ht)
  | none, some b => exact hQ t (hb t ht)
  | some a, some b =>
    cases ht
    exact hproduct a b (ha a rfl) (hb b rfl)

theorem relocate_negateAngles (t : TapChanger α) :
    t.negateAngles.relocate = t.relocate.negateAngles := by
  simp only [relocate, negateAngles, List.map_map]
  rfl

theorem forall_mem_product {a b : TapChanger α} {P : TapStep α → Prop} :
    (∀ c ∈ (product a b).steps, P c) ↔ ∀ s ∈ a.steps, ∀ t ∈ b.steps, P (s.compose t) := by
  simp only [product, List.mem_flatMap, List.mem_map]
  apply Iff.intro
  · intro h s hs t ht
    exact h _ ⟨s, hs, t, ht, rfl⟩
  · rintro h _ ⟨s, hs, t, ht, rfl⟩
    exact h s hs t ht

end TapChanger

end EquivalentCircuit
