import EquivalentCircuit.Document.Basic
import EquivalentCircuit.Transformer.ThreeWinding
import EquivalentCircuit.Transformer.TwoWinding

/-! Checked computations taken apart. A result was reached through a result of every step, and once
the ends are checked a conversion is the move of its ratio and nothing else that can fail. -/

namespace EquivalentCircuit

namespace Checked

variable {α β γ : Type}

theorem bind_eq_ok {x : Checked α β} {f : β → Checked α γ} {c : γ} :
    x >>= f = .ok c ↔ ∃ b, x = .ok b ∧ f b = .ok c := by
  cases x with
  | ok b => exact ⟨fun h => ⟨b, rfl, h⟩, fun ⟨_, hb, h⟩ => by cases hb; exact h⟩
  | error e => exact ⟨fun h => (nomatch h), fun ⟨_, hb, _⟩ => nomatch hb⟩

theorem bind_eq_error {x : Checked α β} {f : β → Checked α γ} {m : Malformed α} :
    x >>= f = .error m ↔ x = .error m ∨ ∃ b, x = .ok b ∧ f b = .error m := by
  cases x with
  | ok b =>
    refine ⟨fun h => .inr ⟨b, rfl, h⟩, ?_⟩
    rintro (h | ⟨_, hb, h⟩)
    · cases h
    · cases hb
      exact h
  | error e =>
    apply Iff.intro
    · intro h
      cases h
      exact .inl rfl
    · rintro (h | ⟨_, hb, _⟩)
      · cases h
        rfl
      · cases hb

@[simp] theorem ok_bind (b : β) (f : β → Checked α γ) : (.ok b : Checked α β) >>= f = f b := rfl

theorem map_eq_ok {x : Checked α β} {f : β → γ} {c : γ} :
    x.map f = .ok c ↔ ∃ b, x = .ok b ∧ c = f b := by
  cases x with
  | ok b => simp [Except.map, eq_comm]
  | error e => simp [Except.map]

theorem map_eq_error {x : Checked α β} {f : β → γ} {m : Malformed α} :
    x.map f = .error m ↔ x = .error m := by
  cases x with
  | ok b => simp [Except.map]
  | error e => simp [Except.map]

theorem exists_eq_ok {x : Checked α β} (h : x.isOk = true) : ∃ b, x = .ok b := by
  cases x with
  | ok b => exact ⟨b, rfl⟩
  | error e => nomatch h

theorem eq_ok_of_toOption {x : Checked α β} {b : β} (h : x.toOption = some b) : x = .ok b := by
  cases x with
  | ok c =>
    cases h
    rfl
  | error e => cases h

/-- A check is passed if it is evaluated to a success. -/
theorem eq_ok_of_isOk {x : Checked α Unit} (h : x.isOk = true) : x = .ok () := by
  obtain ⟨_, hx⟩ := exists_eq_ok h
  exact hx

end Checked

variable {α : Type} [Scalar α]

namespace TwoWindingEnds

def conversionOf (p : Policy) (t : TwoWindingEnds α) (s : PiSection α) :
    Conversion α (TwoWindingModel α) :=
  ⟨t.modelOf p s, ControlRecord.ofTwoWinding (t.modelOf p s), t.diagnostics p⟩

theorem convert_eq (p : Policy) (t : TwoWindingEnds α) :
    t.convert p = t.check >>= fun _ => (t.movedSection p.twoWinding).map (t.conversionOf p) :=
  rfl

theorem convert_of_check {p : Policy} {t : TwoWindingEnds α} (h : t.check = .ok ()) :
    t.convert p = (t.movedSection p.twoWinding).map (t.conversionOf p) := by
  rw [convert_eq, h, Checked.ok_bind]

theorem convert_eq_ok {p : Policy} {t : TwoWindingEnds α} {c : Conversion α (TwoWindingModel α)} :
    t.convert p = .ok c ↔
      t.check = .ok () ∧ ∃ s, t.movedSection p.twoWinding = .ok s ∧ c = t.conversionOf p s := by
  simp only [convert_eq, Checked.bind_eq_ok, Checked.map_eq_ok]
  exact ⟨fun ⟨(), h⟩ => h, fun h => ⟨(), h⟩⟩

end TwoWindingEnds

namespace PerWinding

variable {β γ : Type} {f : β → Checked α γ} {p : PerWinding β}

omit [Scalar α]

theorem mapM_eq_bind (f : β → Checked α γ) (p : PerWinding β) :
    p.mapM f = f p.one >>= fun a => f p.two >>= fun b => f p.three >>= fun c => .ok ⟨a, b, c⟩ :=
  rfl

/-- Results for all windings are a result for each. -/
theorem mapM_eq_ok {q : PerWinding γ} : p.mapM f = .ok q ↔ ∀ i, f (p.get i) = .ok (q.get i) := by
  simp only [mapM_eq_bind, Checked.bind_eq_ok]
  apply Iff.intro
  · rintro ⟨a, ha, b, hb, c, hc, hq⟩ i
    cases hq
    cases i with
    | one => exact ha
    | two => exact hb
    | three => exact hc
  · exact fun h => ⟨q.one, h .one, q.two, h .two, q.three, h .three, rfl⟩

theorem exists_mapM_eq_ok : (∃ q, p.mapM f = .ok q) ↔ ∀ i, ∃ c, f (p.get i) = .ok c := by
  apply Iff.intro
  · rintro ⟨q, h⟩ i
    exact ⟨q.get i, mapM_eq_ok.1 h i⟩
  · intro h
    obtain ⟨a, ha⟩ := h .one
    obtain ⟨b, hb⟩ := h .two
    obtain ⟨c, hc⟩ := h .three
    refine ⟨⟨a, b, c⟩, mapM_eq_ok.2 fun i => ?_⟩
    cases i with
    | one => exact ha
    | two => exact hb
    | three => exact hc

theorem exists_of_mapM_eq_error {m : Malformed α} (h : p.mapM f = .error m) :
    ∃ i, f (p.get i) = .error m := by
  simp only [mapM_eq_bind, Checked.bind_eq_error] at h
  rcases h with h | ⟨a, -, h | ⟨b, -, h | ⟨c, -, h⟩⟩⟩
  · exact ⟨.one, h⟩
  · exact ⟨.two, h⟩
  · exact ⟨.three, h⟩
  · cases h

end PerWinding

theorem WindingIndex.get_each (i : WindingIndex) : WindingIndex.each.get i = i := by
  cases i with
  | one => rfl
  | two => rfl
  | three => rfl

omit [Scalar α] in
theorem WindingIndex.mapM_each_eq_ok {γ : Type} {f : WindingIndex → Checked α γ}
    {p : PerWinding γ} : WindingIndex.each.mapM f = .ok p ↔ ∀ i, f i = .ok (p.get i) := by
  simp only [PerWinding.mapM_eq_ok, get_each]

namespace ThreeWindingEnds

def conversionOf (p : Policy) (t : ThreeWindingEnds α) (legs : PerWinding (LegModel α)) :
    Conversion α (ThreeWindingModel α) :=
  let model : ThreeWindingModel α := ⟨t.id, p.threeWinding.starVoltage.select t, legs⟩
  ⟨model, ControlRecord.ofThreeWinding model, t.clockIssues p ++ t.tapConflicts p⟩

theorem convert_eq (p : Policy) (t : ThreeWindingEnds α) :
    t.convert p = t.check >>= fun _ =>
      (WindingIndex.each.mapM (t.leg p)).map (t.conversionOf p) :=
  rfl

theorem convert_of_check {p : Policy} {t : ThreeWindingEnds α} (h : t.check = .ok ()) :
    t.convert p = (WindingIndex.each.mapM (t.leg p)).map (t.conversionOf p) := by
  rw [convert_eq, h, Checked.ok_bind]

theorem convert_eq_ok {p : Policy} {t : ThreeWindingEnds α}
    {c : Conversion α (ThreeWindingModel α)} :
    t.convert p = .ok c ↔
      t.check = .ok () ∧
        ∃ legs, WindingIndex.each.mapM (t.leg p) = .ok legs ∧ c = t.conversionOf p legs := by
  simp only [convert_eq, Checked.bind_eq_ok, Checked.map_eq_ok]
  exact ⟨fun ⟨(), h⟩ => h, fun h => ⟨(), h⟩⟩

end ThreeWindingEnds

end EquivalentCircuit
