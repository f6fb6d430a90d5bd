import EquivalentCircuit.Files.Attempt

/-! Runs of work that may fail. Parts run one after the other, and the first failure ends the whole
in the state it has left. So work that leaves all files alone, and work that does the same from
related states, is made of parts that do. -/

namespace EquivalentCircuit
namespace Attempt

variable {σ β γ : Type} {x y : Attempt (StateM σ) β} {s t : σ}

theorem run_bind_of_ok {f : β → Attempt (StateM σ) γ} {b : β} (h : x.run.run s = (.ok b, t)) :
    (x >>= f).run.run s = (f b).run.run t := by
  rw [ExceptT.run_bind, StateT.run_bind, h]
  rfl

theorem run_bind_of_error {f : β → Attempt (StateM σ) γ} {e : Failure}
    (h : x.run.run s = (.error e, t)) : (x >>= f).run.run s = (.error e, t) := by
  rw [ExceptT.run_bind, StateT.run_bind, h]
  rfl

theorem run_during (a : Activity) {r : Except Failure β} (h : x.run.run s = (r, t)) :
    (x.during a).run.run s = (r.mapError (a :: ·), t) := by
  simp only [during, ExceptT.run_mk, StateT.run_bind, h]
  cases r with
  | error e => rfl
  | ok b => rfl

theorem run_succeed (a : Activity) {w : StateM σ Bool} {done : Bool} (h : w.run s = (done, t)) :
    (succeed a w).run.run s = (if done then .ok () else .error [a], t) := by
  simp only [succeed, ExceptT.run_mk, StateT.run_bind, h]
  cases done with
  | true => rfl
  | false => rfl

/-- Work that succeeds has done so part by part. -/
theorem exists_run_of_bind {f : β → Attempt (StateM σ) γ} {c : γ}
    (h : ((x >>= f).run.run s).1 = .ok c) :
    ∃ b t, x.run.run s = (.ok b, t) ∧ ((f b).run.run t).1 = .ok c := by
  obtain ⟨r, t, hx⟩ : ∃ r t, x.run.run s = (r, t) := ⟨_, _, rfl⟩
  cases r with
  | error e =>
    rw [run_bind_of_error hx] at h
    cases h
  | ok b =>
    rw [run_bind_of_ok hx] at h
    exact ⟨b, t, hx, h⟩

/-- Work that ends by returning a value returns no other. -/
theorem eq_of_bind_pure {a b : β} {u : Attempt (StateM σ) Unit}
    (h : ((u >>= fun _ => pure b : Attempt (StateM σ) β).run.run s).1 = .ok a) : a = b := by
  obtain ⟨_, _, -, hb⟩ := exists_run_of_bind h
  exact (Except.ok.inj hb).symm

def ReadOnly (x : Attempt (StateM σ) β) : Prop := ∀ files, (x.run.run files).2 = files

namespace ReadOnly

theorem run_eq (hx : ReadOnly x) {r : Except Failure β} (h : (x.run.run s).1 = r) :
    x.run.run s = (r, s) :=
  Prod.ext h (hx s)

theorem run_bind_of_ok (hx : ReadOnly x) {f : β → Attempt (StateM σ) γ} {b : β}
    (h : (x.run.run s).1 = .ok b) : (x >>= f).run.run s = (f b).run.run s :=
  Attempt.run_bind_of_ok (hx.run_eq h)

theorem run_bind_of_error (hx : ReadOnly x) {f : β → Attempt (StateM σ) γ} {e : Failure}
    (h : (x.run.run s).1 = .error e) : (x >>= f).run.run s = (.error e, s) :=
  Attempt.run_bind_of_error (hx.run_eq h)

theorem pure (b : β) : ReadOnly (pure b : Attempt (StateM σ) β) := fun _ => rfl

theorem bind {f : β → Attempt (StateM σ) γ} (hx : ReadOnly x) (hf : ∀ b, ReadOnly (f b)) :
    ReadOnly (x >>= f) := by
  intro files
  cases h : (x.run.run files).1 with
  | error e => rw [hx.run_bind_of_error h]
  | ok b =>
    rw [hx.run_bind_of_ok h]
    exact hf b files

theorem ofOption (a : Activity) (o : Option β) :
    ReadOnly (Attempt.ofOption a o : Attempt (StateM σ) β) := by
  cases o with
  | none => exact fun _ => rfl
  | some b => exact fun _ => rfl

theorem during (a : Activity) (hx : ReadOnly x) : ReadOnly (x.during a) := by
  intro files
  rw [run_during a (hx.run_eq rfl)]

theorem readText [FileSystem σ] (a : Activity) (path : String) :
    ReadOnly (Attempt.readText a path : Attempt (StateM σ) String) :=
  bind (fun _ => rfl) fun _ => ofOption a _

end ReadOnly

/-- The two give the same from related states, and lead to related states. -/
def Alike (R : σ → σ → Prop) (x y : Attempt (StateM σ) β) : Prop :=
  ∀ s s', R s s' → (x.run.run s).1 = (y.run.run s').1 ∧ R (x.run.run s).2 (y.run.run s').2

namespace Alike

variable {R : σ → σ → Prop}

theorem exists_run (h : Alike R x y) {s s' : σ} (hs : R s s') :
    ∃ r t t', x.run.run s = (r, t) ∧ y.run.run s' = (r, t') ∧ R t t' := by
  obtain ⟨hresult, hstate⟩ := h s s' hs
  exact ⟨_, _, (y.run.run s').2, rfl, Prod.ext hresult.symm rfl, hstate⟩

theorem pure (b : β) : Alike R (pure b) (pure b) := fun _ _ h => ⟨rfl, h⟩

theorem bind {f g : β → Attempt (StateM σ) γ} (h : Alike R x y) (hf : ∀ b, Alike R (f b) (g b)) :
    Alike R (x >>= f) (y >>= g) := by
  intro s s' hs
  obtain ⟨r, t, t', hx, hy, ht⟩ := h.exists_run hs
  cases r with
  | error e =>
    rw [run_bind_of_error hx, run_bind_of_error hy]
    exact ⟨rfl, ht⟩
  | ok b =>
    rw [run_bind_of_ok hx, run_bind_of_ok hy]
    exact hf b t t' ht

theorem during (a : Activity) (h : Alike R x y) : Alike R (x.during a) (y.during a) := by
  intro s s' hs
  obtain ⟨r, t, t', hx, hy, ht⟩ := h.exists_run hs
  rw [run_during a hx, run_during a hy]
  exact ⟨rfl, ht⟩

theorem succeed (a : Activity) {w w' : StateM σ Bool}
    (h : ∀ s s', R s s' → (w s).1 = (w' s').1 ∧ R (w s).2 (w' s').2) :
    Alike R (Attempt.succeed a w) (Attempt.succeed a w') := by
  intro s s' hs
  obtain ⟨hresult, hstate⟩ := h s s' hs
  have hw : w.run s = ((w s).1, (w s).2) := rfl
  have hw' : w'.run s' = ((w s).1, (w' s').2) := Prod.ext hresult.symm rfl
  rw [run_succeed a hw, run_succeed a hw']
  exact ⟨rfl, hstate⟩

end Alike

end Attempt
end EquivalentCircuit
