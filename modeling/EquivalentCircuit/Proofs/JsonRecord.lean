import EquivalentCircuit.Json.Fields
import EquivalentCircuit.Proofs.ByName
import EquivalentCircuit.Proofs.FiniteNumbers

/-! Records written and read back. A record that is written holds its members once, in the order of
the names, so reading finds each of them where it was put. What a record of finite numbers is read
as has finite numbers itself. -/

namespace EquivalentCircuit

variable {β : Type}

namespace Json

/-! Single values. -/

@[simp] theorem toText?_text (s : String) : (text s).toText? = some s := rfl

@[simp] theorem toBool?_bool (b : Bool) : (bool b).toBool? = some b := rfl

@[simp] theorem toChoice?_text (named : String → Option β) (s : String) :
    (text s).toChoice? named = named s :=
  rfl

@[simp] theorem toFloat?_ofFloat {x : Float} (h : x.isFinite = true) :
    (ofFloat x).toFloat? = some x := by
  rw [ofFloat, if_pos h]
  rfl

theorem toIntIn?_ofInt {low high n : Int} (h : low ≤ n ∧ n ≤ high) :
    (ofInt n).toIntIn? low high = some n :=
  if_pos h

@[simp] theorem toInt32?_ofInt (n : Int32) : (ofInt n.toInt).toInt32? = some n := by
  have h : Int32.minValue.toInt ≤ n.toInt ∧ n.toInt ≤ Int32.maxValue.toInt :=
    ⟨n.minValue_le_toInt, n.toInt_le⟩
  rw [toInt32?, toIntIn?_ofInt h, Option.map_some, Int32.ofInt_toInt]

@[simp] theorem toNat?_ofNat {n : Nat} (h : n < Nat.pow 2 64) : (ofNat n).toNat? = some n := by
  rw [toNat?]
  change ((ofInt n).toIntIn? _ _).map _ = _
  rw [toIntIn?_ofInt (by omega), Option.map_some, Int.toNat_natCast]

@[simp] theorem toUInt8?_ofNat (n : UInt8) : (ofNat n.toNat).toUInt8? = some n := by
  have h := n.toNat_lt
  rw [toUInt8?]
  change ((ofInt n.toNat).toIntIn? _ _).map _ = _
  rw [toIntIn?_ofInt (by omega), Option.map_some, Int.toNat_natCast]
  exact congrArg some n.ofNat_toNat

variable {read : Json → Option β} {write : β → Json}

/-- Where null stands for no value, a value is told from a missing one. -/
theorem toOption?_eq_some (hnull : read null = none) {j : Json} {b : β} (h : read j = some b) :
    j.toOption? read = some (some b) := by
  cases j with
  | null => rw [hnull] at h; cases h
  | _ => exact congrArg (Option.map some) h

theorem toOption?_ofOption (hnull : read null = none) {o : Option β}
    (h : ∀ b ∈ o, read (write b) = some b) : (ofOption write o).toOption? read = some o := by
  cases o with
  | none => rfl
  | some b => exact toOption?_eq_some hnull (h b rfl)

theorem toList?_map {l : List β} (h : ∀ b ∈ l, read (write b) = some b) :
    (list (l.map write)).toList? read = some l :=
  mapM_eq_some_iff.2 (List.forall₂_map_left_iff.2 (List.forall₂_same.2 h))

end Json

namespace Fields

/-! Members of records that are written. -/

variable {name n : String} {j : Json} {ms ms' : List (String × Json)} {p : Bool}

@[simp] theorem get?_nil : get? ⟨[], p⟩ name = none := rfl

@[simp] theorem get?_cons :
    get? ⟨(n, j) :: ms, p⟩ name = if name = n then some j else get? ⟨ms, p⟩ name :=
  lookup_cons_eq_ite name n j ms

@[simp] theorem get?_append :
    get? ⟨ms ++ ms', p⟩ name = (get? ⟨ms, p⟩ name).or (get? ⟨ms', p⟩ name) :=
  List.lookup_append

@[simp] theorem get?_memberOf {write : β → Json} {o : Option β} :
    get? ⟨Json.memberOf n write o, p⟩ name = if name = n then o.map write else none := by
  cases o with
  | none => exact (ite_self _).symm
  | some b => exact get?_cons

@[simp] theorem required_eq (f : Fields) (name : String) (read : Json → Option β) :
    f.required name read = (f.get? name).bind read :=
  rfl

@[simp] theorem defaulted_eq (f : Fields) (name : String) (d : β) (read : Json → Option β) :
    f.defaulted name d read = (f.get? name).elim (some d) read := by
  rw [defaulted]
  cases f.get? name <;> rfl

@[simp] theorem optional_eq (f : Fields) (name : String) (read : Json → Option β) :
    f.optional name read =
      (f.get? name).elim (if f.positional then none else some none) (Json.toOption? read) := by
  rw [optional]
  cases f.get? name <;> rfl

/-- A member left out where there is no value is read with nothing as its default. -/
theorem elim_map_toOption? {read : Json → Option β} {write : β → Json} (hnull : read .null = none)
    {o : Option β} (h : ∀ b ∈ o, read (write b) = some b) :
    (o.map write).elim (some none) (Json.toOption? read) = some o := by
  cases o with
  | none => rfl
  | some b => exact Json.toOption?_eq_some hnull (h b rfl)

end Fields

namespace Json

theorem fields?_record {names : List String} {ms : List (String × Json)} (hn : names.Nodup)
    (hs : (ms.map Prod.fst).Sublist names) : (record ms).fields? names = some ⟨ms, false⟩ := by
  have hknown : ms.filter (fun m => names.contains m.1) = ms :=
    List.filter_eq_self.2 fun m hm =>
      List.contains_iff_mem.2 (hs.subset (List.mem_map_of_mem hm))
  simp only [fields?, hknown]
  exact if_pos (hn.sublist hs)

/-- A member that may be left out has its name after those before it. -/
theorem append_memberOf_sublist {names : List String} {ms : List (String × Json)}
    (h : (ms.map Prod.fst).Sublist names) (name : String) (write : β → Json) (o : Option β) :
    ((ms ++ memberOf name write o).map Prod.fst).Sublist (names ++ [name]) := by
  rw [List.map_append]
  cases o with
  | none => exact h.append (List.nil_sublist _)
  | some b => exact h.append (.refl _)

/-! What is read from finite numbers. -/

variable {read : Json → Option β} {P : β → Prop}

/-- Whatever a value of finite numbers is read as has the property. -/
def Reads (read : Json → Option β) (P : β → Prop) : Prop :=
  ∀ j b, j.Finite → read j = some b → P b

theorem reads_toFloat? : Reads toFloat? fun x => x.isFinite = true := by
  intro j x hj h
  cases hj with
  | number hn => cases h; exact hn
  | _ => cases h

theorem Reads.toOption? (h : Reads read P) : Reads (toOption? read) fun o => ∀ b ∈ o, P b := by
  rintro j o hj ho b rfl
  cases j with
  | null => cases ho
  | _ =>
    obtain ⟨c, hc, hb⟩ := Option.map_eq_some_iff.1 ho
    cases hb
    exact h _ b hj hc

theorem Reads.toList? (h : Reads read P) : Reads (toList? read) fun l => ∀ b ∈ l, P b := by
  intro j l hj hl b hb
  cases hj with
  | list hitems =>
    obtain ⟨j, hj, hread⟩ := exists_of_mem_mapM hl hb
    exact h j b (hitems j hj) hread
  | _ => cases hl

end Json

namespace Fields

variable {f : Fields} {read : Json → Option β} {P : β → Prop}

def Finite (f : Fields) : Prop := ∀ m ∈ f.members, m.2.Finite

theorem finite_of_fields? {names : List String} {j : Json} (hj : j.Finite)
    (h : j.fields? names = some f) : f.Finite := by
  cases hj with
  | record hmembers =>
    simp only [Json.fields?] at h
    split_ifs at h
    cases h
    exact fun m hm => hmembers m (List.mem_of_mem_filter hm)
  | list hitems =>
    simp only [Json.fields?] at h
    split_ifs at h
    cases h
    exact fun m hm => hitems m.2 (List.of_mem_zip hm).2
  | _ => cases h

namespace Finite

variable {name : String} {b d : β}

theorem get? (hf : f.Finite) {j : Json} (h : f.get? name = some j) : j.Finite := by
  obtain ⟨l, r, hmembers, -⟩ := List.lookup_eq_some_iff.1 h
  exact hf (name, j) (hmembers ▸ List.mem_append_right _ List.mem_cons_self)

theorem required (hf : f.Finite) (hr : Json.Reads read P) (h : f.required name read = some b) :
    P b := by
  obtain ⟨j, hj, hread⟩ := Option.bind_eq_some_iff.1 h
  exact hr j b (hf.get? hj) hread

theorem defaulted (hf : f.Finite) (hr : Json.Reads read P) (hd : P d)
    (h : f.defaulted name d read = some b) : P b := by
  rw [defaulted_eq] at h
  cases hj : f.get? name with
  | none => rw [hj] at h; cases h; exact hd
  | some j => rw [hj] at h; exact hr j b (hf.get? hj) h

theorem defaulted_toOption? (hf : f.Finite) (hr : Json.Reads read P) {o : Option β}
    (h : f.defaulted name none (Json.toOption? read) = some o) : ∀ b ∈ o, P b :=
  hf.defaulted (P := fun o => ∀ b ∈ o, P b) hr.toOption? (by simp) h

theorem defaulted_toList? (hf : f.Finite) (hr : Json.Reads read P) {l : List β}
    (h : f.defaulted name [] (Json.toList? read) = some l) : ∀ b ∈ l, P b :=
  hf.defaulted (P := fun l => ∀ b ∈ l, P b) hr.toList? (List.forall_mem_nil _) h

theorem required_toFloat? (hf : f.Finite) {x : Float}
    (h : f.required name Json.toFloat? = some x) : x.isFinite = true :=
  hf.required (P := fun x => x.isFinite = true) Json.reads_toFloat? h

theorem defaulted_toFloat? (hf : f.Finite) {x : Float}
    (h : f.defaulted name 0.0 Json.toFloat? = some x) : x.isFinite = true :=
  hf.defaulted (P := fun x => x.isFinite = true) Json.reads_toFloat? rfl h

end Finite

end Fields

end EquivalentCircuit
