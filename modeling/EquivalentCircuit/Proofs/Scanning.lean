import Mathlib.Data.List.Basic
import Mathlib.Data.List.TakeDrop
import EquivalentCircuit.Text.Scan

/-! Reading texts step by step. All readers are states over an option, so a step whose outcome is
known is taken by one rewrite. -/

namespace EquivalentCircuit

theorem bind_of_eq {σ β γ : Type} {x : StateT σ Option β} {f : β → StateT σ Option γ} {b : β}
    {s t : σ} (h : x s = some (b, t)) : (x >>= f) s = f b t := by
  change (x s).bind (fun r => f r.1 r.2) = f b t
  rw [h]
  rfl

theorem bind_of_none {σ β γ : Type} {x : StateT σ Option β} {f : β → StateT σ Option γ} {s : σ}
    (h : x s = none) : (x >>= f) s = none := by
  change (x s).bind (fun r => f r.1 r.2) = none
  rw [h]
  rfl

namespace Scan

variable {c : Char} {s t : List Char}

theorem char_self (c : Char) (s : List Char) : char c (c :: s) = some ((), s) := if_pos rfl

theorem charIf_self (c : Char) (s : List Char) : charIf c (c :: s) = some (true, s) := if_pos rfl

theorem charIf_of_head? (h : ∀ d ∈ s.head?, c ≠ d) : charIf c s = some (false, s) := by
  cases s with
  | nil => rfl
  | cons d s => exact if_neg (h d rfl)

theorem takeWhile_append {p : Char → Bool} (hs : ∀ c ∈ s, p c = true)
    (ht : ∀ c ∈ t.head?, p c = false) : takeWhile p (s ++ t) = some (s, t) := by
  have hstop : t.takeWhile p = [] ∧ t.dropWhile p = t := by
    cases t with
    | nil => exact ⟨rfl, rfl⟩
    | cons c t =>
      have hc : ¬ p c = true := ne_true_of_eq_false (ht c rfl)
      exact ⟨List.takeWhile_cons_of_neg hc, List.dropWhile_cons_of_neg hc⟩
  rw [takeWhile, List.span_eq_takeWhile_dropWhile, List.takeWhile_append_of_pos hs,
    List.dropWhile_append_of_pos hs, hstop.1, hstop.2, List.append_nil]

end Scan

end EquivalentCircuit
