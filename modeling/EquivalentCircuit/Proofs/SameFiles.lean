import Mathlib.Data.List.Basic
import EquivalentCircuit.Batch.Manifest
import EquivalentCircuit.Files.Tree

/-! Trees of files that differ in what one file holds. Whether a directory can be made or a file be
written depends on where files and directories lie and never on their contents, so whatever is done
to two such trees alike succeeds in both or in neither and leaves them alike. -/

namespace EquivalentCircuit

namespace FileTree

variable {t u : FileTree} {l : Location} {path : String}

/-- Where a path leads, whatever lies on the way. -/
def target (path : String) : Location := (Path.segments path.toList).foldl enter []

theorem eq_foldl_of_walk {ss : List (List Char)} {l l' : Location} (h : t.walk l ss = some l') :
    l' = ss.foldl enter l := by
  induction ss generalizing l with
  | nil => exact (Option.some.inj h).symm
  | cons s ss ih =>
    rw [walk] at h
    split at h
    · exact ih h
    · cases h

theorem eq_target_of_locate (h : t.locate path = some l) : l = target path := by
  unfold locate at h
  split at h
  · exact eq_foldl_of_walk h
  · cases h

/-- Entries of other places are found as before. -/
theorem lookup_filter_ne {l l' : Location} (h : l' ≠ l) (es : List (Location × FileEntry)) :
    (es.filter fun x => x.1 != l).lookup l' = es.lookup l' := by
  induction es with
  | nil => rfl
  | cons x xs ih =>
    obtain ⟨k, e⟩ := x
    by_cases hk : k = l
    · subst hk
      simp [List.lookup_cons, beq_eq_false_iff_ne.2 h, ih]
    · simp [hk, List.lookup_cons, ih]

theorem lookup_insert (hl : l ≠ []) (e : FileEntry) (l' : Location) :
    FileTree.entry? (t.insert l e) l' = if l' = l then some e else t.entry? l' := by
  unfold entry? insert
  split_ifs with hn h h
  · exact absurd (h ▸ List.isEmpty_iff.1 hn) hl
  · rfl
  · subst h
    simp
  · rw [List.lookup_cons, beq_eq_false_iff_ne.2 h]
    exact lookup_filter_ne h _

theorem ne_nil_of_not_isDirectory (h : t.isDirectory l = false) : l ≠ [] := by
  rintro rfl
  cases h

theorem ne_nil_of_vacant (h : t.entry? l = none) : l ≠ [] := by
  rintro rfl
  cases h

/-- The trees are the same but for files whose contents are related. -/
def SameBut (P : Location → ByteArray → ByteArray → Prop) (t u : FileTree) : Prop :=
  ∀ l, t.entry? l = u.entry? l ∨
    ∃ b c, P l b c ∧ t.entry? l = some (.file b) ∧ u.entry? l = some (.file c)

namespace SameBut

variable {P : Location → ByteArray → ByteArray → Prop}

theorem refl (t : FileTree) : SameBut P t t := fun _ => .inl rfl

theorem isDirectory_eq (h : SameBut P t u) (l : Location) : t.isDirectory l = u.isDirectory l := by
  unfold isDirectory
  rcases h l with h | ⟨b, c, -, hb, hc⟩
  · rw [h]
  · rw [hb, hc]

theorem walk_eq (h : SameBut P t u) (ss : List (List Char)) (l : Location) :
    t.walk l ss = u.walk l ss := by
  induction ss generalizing l with
  | nil => rfl
  | cons s ss ih => rw [walk, walk, h.isDirectory_eq, ih]

theorem locate_eq (h : SameBut P t u) (path : String) : t.locate path = u.locate path := by
  unfold locate
  rw [h.walk_eq]

theorem insert (h : SameBut P t u) (hl : l ≠ []) (e : FileEntry) :
    SameBut P (t.insert l e) (u.insert l e) := by
  intro l'
  rw [lookup_insert hl, lookup_insert hl]
  split_ifs
  · exact .inl rfl
  · exact h l'

theorem insert_file (h : SameBut P t u) (hl : l ≠ []) {b c : ByteArray} (hP : P l b c) :
    SameBut P (t.insert l (.file b)) (u.insert l (.file c)) := by
  intro l'
  rw [lookup_insert hl, lookup_insert hl]
  split_ifs with hl'
  · exact .inr ⟨b, c, hl' ▸ hP, rfl, rfl⟩
  · exact h l'

theorem write (h : SameBut P t u) {b c : ByteArray} (hbc : b = c ∨ P (target path) b c) :
    (t.write path b).1 = (u.write path c).1 ∧
      SameBut P (t.write path b).2 (u.write path c).2 := by
  unfold FileTree.write
  rw [← h.locate_eq]
  cases hlocate : t.locate path with
  | none => exact ⟨rfl, h⟩
  | some l =>
    cases hl : t.isDirectory l with
    | true =>
      simp only [hl, ← h.isDirectory_eq, if_true]
      exact ⟨trivial, h⟩
    | false =>
      simp only [hl, ← h.isDirectory_eq, Bool.false_eq_true, if_false, true_and]
      rcases hbc with rfl | hP
      · exact h.insert (ne_nil_of_not_isDirectory hl) _
      · rw [← eq_target_of_locate hlocate] at hP
        exact h.insert_file (ne_nil_of_not_isDirectory hl) hP

theorem makeAlong (h : SameBut P t u) (ss : List (List Char)) (l : Location) :
    (t.makeAlong l ss).1 = (u.makeAlong l ss).1 ∧
      SameBut P (t.makeAlong l ss).2 (u.makeAlong l ss).2 := by
  induction ss generalizing t u l with
  | nil => exact ⟨rfl, h⟩
  | cons s ss ih =>
    simp only [FileTree.makeAlong]
    rcases h (enter l s) with he | ⟨b, c, -, hb, hc⟩
    · rw [← he]
      cases hentry : t.entry? (enter l s) with
      | none =>
        by_cases hs : isName s
        · simp only [hs, if_true]
          exact ih (h.insert (ne_nil_of_vacant hentry) _) _
        · simp only [hs, Bool.false_eq_true, if_false]
          exact ⟨trivial, h⟩
      | some e =>
        cases e with
        | file b => exact ⟨rfl, h⟩
        | directory => exact ih h _
    · rw [hb, hc]
      exact ⟨rfl, h⟩

theorem makeDirectories (h : SameBut P t u) (path : String) :
    (t.makeDirectories path).1 = (u.makeDirectories path).1 ∧
      SameBut P (t.makeDirectories path).2 (u.makeDirectories path).2 := by
  unfold FileTree.makeDirectories
  split_ifs
  · exact h.makeAlong _ _
  · exact ⟨rfl, h⟩

end SameBut

end FileTree

def BatchManifest.bytes (b : BatchManifest) : ByteArray := b.toJson.pretty.toUTF8

/-- Two contents of the manifest's file that differ in the time of the run only. -/
def StampedAt (manifest : Option String) (now now' : Timestamp) (l : Location)
    (b c : ByteArray) : Prop :=
  (∃ path ∈ manifest, l = FileTree.target path) ∧
    ∃ m : BatchManifest, b = { m with createdAt := now }.bytes ∧
      c = { m with createdAt := now' }.bytes

end EquivalentCircuit
