import Mathlib.Data.List.Induction
import Mathlib.Data.List.Nodup
import Mathlib.Tactic.SplitIfs

/-! First occurrences in a list whose elements have keys: as a scan with the keys seen so far, and
as the positions at which a key is new. The scan is what a proof by induction meets, the positions
are what is meant. -/

namespace EquivalentCircuit

variable {β : Type} (key : β → String)

/-- The elements whose key is neither among those seen nor that of an element before them. -/
def firsts : List String → List β → List β
  | _, [] => []
  | seen, b :: bs => (if key b ∈ seen then [] else [b]) ++ firsts (key b :: seen) bs

def isRepeat (keys : List String) (i : Nat) : Bool :=
  keys[i]?.any fun k => (keys.take i).contains k

def firstPositions (keys : List String) : List Nat :=
  (List.range keys.length).filter fun i => !isRepeat keys i

def repeatCount (keys : List String) : Nat := (List.range keys.length).countP (isRepeat keys)

variable {key} {seen : List String}

theorem firsts_cons_of_mem {b : β} {bs : List β} (h : key b ∈ seen) :
    firsts key seen (b :: bs) = firsts key (key b :: seen) bs := by
  rw [firsts, if_pos h, List.nil_append]

theorem firsts_cons_of_not_mem {b : β} {bs : List β} (h : key b ∉ seen) :
    firsts key seen (b :: bs) = b :: firsts key (key b :: seen) bs := by
  rw [firsts, if_neg h, List.singleton_append]

/-- Only which keys were seen matters. -/
theorem firsts_congr {seen' : List String} (h : ∀ k, k ∈ seen ↔ k ∈ seen') (l : List β) :
    firsts key seen l = firsts key seen' l := by
  induction l generalizing seen seen' with
  | nil => rfl
  | cons b bs ih =>
    have hb : ∀ k, k ∈ key b :: seen ↔ k ∈ key b :: seen' := by
      intro k
      rw [List.mem_cons, List.mem_cons, h]
    rw [firsts, firsts, ih hb]
    simp only [h]

theorem firsts_append (l m : List β) :
    firsts key seen (l ++ m) = firsts key seen l ++ firsts key ((l.map key).reverse ++ seen) m := by
  induction l generalizing seen with
  | nil => rfl
  | cons b bs ih =>
    rw [List.cons_append, firsts, firsts, ih, List.append_assoc, List.map_cons, List.reverse_cons,
      List.append_assoc]
    rfl

theorem map_firsts {γ : Type} {key' : γ → String} (f : β → γ) (h : ∀ b, key' (f b) = key b)
    (l : List β) : firsts key' seen (l.map f) = (firsts key seen l).map f := by
  induction l generalizing seen with
  | nil => rfl
  | cons b bs ih =>
    rw [List.map_cons, firsts, firsts, h, ih, List.map_append]
    split_ifs <;> rfl

/-- No key is kept twice, and none that was seen before. -/
theorem firsts_nodup (seen : List String) (l : List β) :
    ((firsts key seen l).map key).Nodup ∧ ∀ b ∈ firsts key seen l, key b ∉ seen := by
  induction l generalizing seen with
  | nil => exact ⟨List.nodup_nil, fun _ h => nomatch h⟩
  | cons b bs ih =>
    obtain ⟨hn, hs⟩ := ih (key b :: seen)
    have hrest : ∀ c ∈ firsts key (key b :: seen) bs, key c ∉ seen := by
      intro c hc hm
      exact hs c hc (List.mem_cons_of_mem _ hm)
    by_cases h : key b ∈ seen
    · rw [firsts_cons_of_mem h]
      exact ⟨hn, hrest⟩
    · rw [firsts_cons_of_not_mem h, List.map_cons]
      refine ⟨List.nodup_cons.2 ⟨fun hm => ?_, hn⟩, fun c hc => ?_⟩
      · obtain ⟨c, hc, he⟩ := List.mem_map.1 hm
        exact hs c hc (he ▸ List.mem_cons_self)
      · rcases List.mem_cons.1 hc with rfl | hc
        · exact h
        · exact hrest c hc

/-! One key more at the end. -/

theorem isRepeat_append {keys : List String} (k : String) {i : Nat} (h : i < keys.length) :
    isRepeat (keys ++ [k]) i = isRepeat keys i := by
  unfold isRepeat
  rw [List.getElem?_append_left h, List.take_append_of_le_length (Nat.le_of_lt h)]

theorem isRepeat_length (keys : List String) (k : String) :
    isRepeat (keys ++ [k]) keys.length = keys.contains k := by
  simp [isRepeat]

theorem firstPositions_append (keys : List String) (k : String) :
    firstPositions (keys ++ [k]) =
      firstPositions keys ++ if k ∈ keys then [] else [keys.length] := by
  have hold : ∀ i ∈ List.range keys.length,
      (!isRepeat (keys ++ [k]) i) = !isRepeat keys i := by
    intro i hi
    rw [isRepeat_append k (List.mem_range.1 hi)]
  unfold firstPositions
  rw [List.length_append, List.length_singleton, List.range_succ, List.filter_append,
    List.filter_congr hold, List.filter_singleton, isRepeat_length]
  by_cases hk : k ∈ keys <;> simp [hk]

theorem mem_firstPositions {keys : List String} {i : Nat} (h : i ∈ firstPositions keys) :
    i < keys.length :=
  List.mem_range.1 (List.mem_filter.1 h).1

/-- The scan finds the elements at the positions where a key is new. -/
theorem firsts_eq_positions (l : List β) :
    firsts key [] l = (firstPositions (l.map key)).filterMap (l[·]?) := by
  induction l using List.reverseRecOn with
  | nil => rfl
  | append_singleton l b ih =>
    have hold : ∀ i ∈ firstPositions (l.map key), (l ++ [b])[i]? = l[i]? := by
      intro i hi
      have hlt := mem_firstPositions hi
      rw [List.length_map] at hlt
      exact List.getElem?_append_left hlt
    rw [firsts_append, ih, List.map_append, List.map_singleton, firstPositions_append,
      List.filterMap_append, List.filterMap_congr hold]
    by_cases hb : key b ∈ l.map key
    · have hb' : key b ∈ (l.map key).reverse ++ [] := by simpa using hb
      rw [firsts_cons_of_mem hb', if_pos hb]
      rfl
    · have hb' : key b ∉ (l.map key).reverse ++ [] := by simpa using hb
      rw [firsts_cons_of_not_mem hb', if_neg hb, List.length_map]
      simp [firsts]

/-- Each position holds a first occurrence or a repeat. -/
theorem length_firsts_add_repeatCount (l : List β) :
    (firsts key [] l).length + repeatCount (l.map key) = l.length := by
  have hvalid : (firsts key [] l).length = (firstPositions (l.map key)).length := by
    rw [firsts_eq_positions, List.length_filterMap_eq_countP, List.countP_eq_length]
    intro i hi
    have hlt := mem_firstPositions hi
    rw [List.length_map] at hlt
    rw [List.getElem?_eq_getElem hlt]
    rfl
  have hrange : (List.range (l.map key).length).length = _ :=
    List.length_eq_countP_add_countP (isRepeat (l.map key))
  rw [hvalid, firstPositions, repeatCount, ← List.countP_eq_length_filter]
  simp only [List.length_range, List.length_map, Bool.not_eq_true, Bool.decide_eq_false] at hrange ⊢
  omega

end EquivalentCircuit
