import Mathlib.Data.List.Nodup
import Mathlib.Tactic.SplitIfs
import EquivalentCircuit.Text.ByName

/-! Maps kept as lists in ascending order of their names. A value given last replaces the others of
its name; where no name is given twice, nothing is replaced and the map is what was given, in
order. -/

namespace EquivalentCircuit

variable {β : Type} {name : String} {b : β} {l : List (String × β)}

def Ascending (l : List (String × β)) : Prop := l.Pairwise fun x y => x.1 < y.1

def insertAll (done entries : List (String × β)) : List (String × β) :=
  entries.foldl (fun done e => insertByName e.1 e.2 done) done

theorem lookup_cons_eq_ite (i n : String) (c : β) (l : List (String × β)) :
    ((n, c) :: l).lookup i = if i = n then some c else l.lookup i := by
  rw [List.lookup_cons]
  by_cases h : i = n
  · rw [beq_iff_eq.2 h, if_pos h]
  · rw [beq_eq_false_iff_ne.2 h, if_neg h]

theorem lookup_insertByName (name i : String) (b : β) (l : List (String × β)) :
    (insertByName name b l).lookup i = if i = name then some b else l.lookup i := by
  induction l with
  | nil => exact lookup_cons_eq_ite i name b []
  | cons e l ih =>
    obtain ⟨n, c⟩ := e
    rw [insertByName]
    by_cases h1 : name < n
    · rw [if_pos h1, lookup_cons_eq_ite]
    rw [if_neg h1]
    by_cases h2 : name = n
    · rw [if_pos h2, lookup_cons_eq_ite, lookup_cons_eq_ite, ← h2]
      split_ifs <;> rfl
    · rw [if_neg h2, lookup_cons_eq_ite, lookup_cons_eq_ite, ih]
      by_cases hi : i = name
      · rw [if_neg (hi ▸ h2), if_pos hi, if_pos hi]
      · rw [if_neg hi, if_neg hi]

/-- Of the values given for a name the last one counts. -/
theorem lookup_insertAll (i : String) (done entries : List (String × β)) :
    (insertAll done entries).lookup i = (entries.reverse ++ done).lookup i := by
  induction entries generalizing done with
  | nil => rfl
  | cons e entries ih =>
    have hcons : insertAll done (e :: entries) =
        insertAll (insertByName e.1 e.2 done) entries := rfl
    rw [hcons, ih, List.reverse_cons, List.append_assoc, List.lookup_append, List.lookup_append,
      lookup_insertByName, List.singleton_append, lookup_cons_eq_ite]

theorem insertByName_perm (h : name ∉ l.map Prod.fst) :
    (insertByName name b l).Perm ((name, b) :: l) := by
  induction l with
  | nil => exact .refl _
  | cons e l ih =>
    obtain ⟨n, c⟩ := e
    rw [List.map_cons, List.mem_cons, not_or] at h
    rw [insertByName, if_neg h.1]
    split_ifs
    · exact .refl _
    · exact ((ih h.2).cons _).trans (.swap _ _ _)

theorem mem_insertByName {x : String × β} (h : x ∈ insertByName name b l) :
    x = (name, b) ∨ x ∈ l := by
  induction l with
  | nil => exact .inl (List.mem_singleton.1 h)
  | cons e l ih =>
    obtain ⟨n, c⟩ := e
    rw [insertByName] at h
    split_ifs at h
    · exact List.mem_cons.1 h
    · exact (List.mem_cons.1 h).imp_right (List.mem_cons_of_mem _)
    · rcases List.mem_cons.1 h with rfl | h
      · exact .inr List.mem_cons_self
      · exact (ih h).imp_right (List.mem_cons_of_mem _)

theorem Ascending.insertByName (h : Ascending l) (name : String) (b : β) :
    Ascending (insertByName name b l) := by
  induction l with
  | nil => exact List.pairwise_singleton _ _
  | cons e l ih =>
    obtain ⟨n, c⟩ := e
    obtain ⟨hn, hl⟩ := List.pairwise_cons.1 h
    rw [EquivalentCircuit.insertByName]
    split_ifs with h1 h2
    · refine List.pairwise_cons.2 ⟨fun x hx => ?_, h⟩
      rcases List.mem_cons.1 hx with rfl | hx
      · exact h1
      · exact String.lt_trans h1 (hn x hx)
    · subst h2
      exact List.pairwise_cons.2 ⟨hn, hl⟩
    · refine List.pairwise_cons.2 ⟨fun x hx => ?_, ih hl⟩
      rcases mem_insertByName hx with rfl | hx
      · exact String.not_le.1 fun hle => h2 (String.le_antisymm hle (String.not_lt.1 h1))
      · exact hn x hx

theorem Ascending.insertAll {done : List (String × β)} (h : Ascending done)
    (entries : List (String × β)) : Ascending (insertAll done entries) := by
  induction entries generalizing done with
  | nil => exact h
  | cons e entries ih => exact ih (h.insertByName e.1 e.2)

theorem insertByName_last (h : ∀ x ∈ l, x.1 < name) : insertByName name b l = l ++ [(name, b)] := by
  induction l with
  | nil => rfl
  | cons e l ih =>
    obtain ⟨n, c⟩ := e
    obtain ⟨hn, hl⟩ := List.forall_mem_cons.1 h
    have hne : name ≠ n := fun he => String.lt_irrefl _ (he ▸ hn)
    rw [insertByName, if_neg (String.lt_asymm hn), if_neg hne, ih hl, List.cons_append]

/-- Values given in ascending order of their names are the map. -/
theorem insertAll_of_ascending {done entries : List (String × β)}
    (h : Ascending (done ++ entries)) : insertAll done entries = done ++ entries := by
  induction entries generalizing done with
  | nil => exact (List.append_nil _).symm
  | cons e entries ih =>
    have hlast : ∀ x ∈ done, x.1 < e.1 := fun x hx =>
      (List.pairwise_append.1 h).2.2 x hx e List.mem_cons_self
    have hsplit : done ++ e :: entries = done ++ [e] ++ entries := List.append_cons ..
    have hstep : insertAll done (e :: entries) =
        insertAll (insertByName e.1 e.2 done) entries := rfl
    rw [hsplit] at h
    rw [hstep, insertByName_last hlast, ih h, hsplit]

/-- Where no name is given twice, nothing is lost. -/
theorem insertAll_perm {done entries : List (String × β)}
    (h : ((done ++ entries).map Prod.fst).Nodup) :
    (insertAll done entries).Perm (done ++ entries) := by
  induction entries generalizing done with
  | nil => rw [List.append_nil]; exact .refl _
  | cons e entries ih =>
    have hmiddle : (done ++ e :: entries).Perm (e :: done ++ entries) := List.perm_middle
    have hnodup := (hmiddle.map Prod.fst).nodup_iff.1 h
    have hnew : e.1 ∉ done.map Prod.fst := by
      intro hm
      have hm' : e.1 ∈ (done ++ entries).map Prod.fst :=
        List.map_append ▸ List.mem_append_left _ hm
      exact (List.nodup_cons.1 hnodup).1 hm'
    have hstep : (insertByName e.1 e.2 done ++ entries).Perm (e :: done ++ entries) :=
      (insertByName_perm hnew).append_right entries
    exact (ih ((hstep.map Prod.fst).nodup_iff.2 hnodup)).trans (hstep.trans hmiddle.symm)

/-- The order of the names leaves one way to list a map. -/
theorem Ascending.eq_of_perm {l m : List (String × β)} (hl : Ascending l) (hm : Ascending m)
    (h : l.Perm m) : l = m :=
  List.Perm.eq_of_pairwise
    (fun _ _ _ _ hxy hyx => absurd (String.lt_trans hxy hyx) (String.lt_irrefl _)) hl hm h

/-- Where every name stands once, looking one up finds the value that stands beside it. -/
theorem lookup_eq_some_iff (h : (l.map Prod.fst).Nodup) :
    l.lookup name = some b ↔ (name, b) ∈ l := by
  induction l with
  | nil => simp
  | cons e l ih =>
    obtain ⟨n, c⟩ := e
    rw [List.map_cons, List.nodup_cons] at h
    rw [lookup_cons_eq_ite, List.mem_cons, Prod.mk.injEq]
    by_cases hn : name = n
    · subst hn
      have hb : (name, b) ∉ l := fun hm => h.1 (List.mem_map.2 ⟨_, hm, rfl⟩)
      simp [hb, eq_comm]
    · rw [if_neg hn, ih h.2]
      simp [hn]

end EquivalentCircuit
