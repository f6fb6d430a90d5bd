import Mathlib.Logic.Relation
import EquivalentCircuit.Document.Codec
import EquivalentCircuit.Proofs.TapCodec

/-! Rearranged documents. A reader looks members up by their names, so their order and members of
other names do not matter, at any depth. What is known at a place is the shape that is expected
there; in a tap table it depends on the kind, which may itself be moved. -/

namespace EquivalentCircuit

/-- What is expected at a place of a document. -/
inductive Shape where
  /-- A single value, or one that is skipped. -/
  | plain
  | list (item : Shape)
  /-- A record of known names, with the shapes of those values that are not plain. -/
  | record (names : List String) (inner : List (String × Shape))
  /-- A record of one of several variants, selected by its kind. -/
  | tagged (variants : List (String × List String × List (String × Shape)))

namespace TapTable

def kindOf? (ms : List (String × Json)) : Option String :=
  match ms.filter fun m => m.1 = "kind" with
  | [(_, .text kind)] => some kind
  | _ => none

def kindOfItems? : List Json → Option String
  | .text kind :: _ => some kind
  | _ => none

end TapTable

namespace Shape

def ofName (inner : List (String × Shape)) (name : String) : Shape :=
  (inner.lookup name).getD plain

def ofPosition (names : List String) (inner : List (String × Shape)) (i : Nat) : Shape :=
  names[i]?.elim plain (ofName inner)

def ofKind? (variants : List (String × List String × List (String × Shape)))
    (kind : Option String) : Option (List String × List (String × Shape)) :=
  kind.bind fun k => variants.lookup k

def member (s : Shape) (ms : List (String × Json)) (name : String) : Shape :=
  match s with
  | plain | list _ => plain
  | record _ inner => ofName inner name
  | tagged variants =>
    if name = "kind" then plain
    else (ofKind? variants (TapTable.kindOf? ms)).elim plain fun v => ofName v.2 name

/-- The shape of an item of a list, which may stand for a record. -/
def item (s : Shape) (items : List Json) (i : Nat) : Shape :=
  match s, i with
  | plain, _ => plain
  | list s, _ => s
  | record names inner, i => ofPosition names inner i
  | tagged _, 0 => plain
  | tagged variants, i + 1 =>
    (ofKind? variants (TapTable.kindOfItems? items)).elim plain fun v => ofPosition v.1 v.2 i

/-- A record is expected, and it skips the name. -/
def Skips (s : Shape) (ms : List (String × Json)) (name : String) : Prop :=
  match s with
  | plain | list _ => False
  | record names _ => name ∉ names
  | tagged variants =>
    name ≠ "kind" ∧ ∀ v ∈ ofKind? variants (TapTable.kindOf? ms), name ∉ v.1

end Shape

namespace Json

/-- One change to the order of members or to members that are skipped, at any depth. -/
inductive Rearranges : Shape → Json → Json → Prop
  | permute {s : Shape} {ms ms' : List (String × Json)} (h : ms.Perm ms') :
    Rearranges s (.record ms) (.record ms')
  | insert {s : Shape} {ms : List (String × Json)} {name : String} {j : Json}
    (h : s.Skips ms name) (hj : j.readable = true) :
    Rearranges s (.record ms) (.record ((name, j) :: ms))
  | member {s : Shape} {l r : List (String × Json)} {name : String} {j j' : Json}
    (h : Rearranges (s.member (l ++ (name, j) :: r) name) j j') :
    Rearranges s (.record (l ++ (name, j) :: r)) (.record (l ++ (name, j') :: r))
  | item {s : Shape} {l r : List Json} {j j' : Json}
    (h : Rearranges (s.item (l ++ j :: r) l.length) j j') :
    Rearranges s (.list (l ++ j :: r)) (.list (l ++ j' :: r))

def Rearranged (s : Shape) : Json → Json → Prop := Relation.ReflTransGen (Rearranges s)

theorem readableMembers_iff {ms : List (String × Json)} :
    readableMembers ms = true ↔ ∀ m ∈ ms, m.2.readable = true := by
  induction ms with
  | nil => exact ⟨fun _ => List.forall_mem_nil _, fun _ => rfl⟩
  | cons m ms ih => rw [readableMembers, Bool.and_eq_true, ih, List.forall_mem_cons]

theorem Rearranges.readable_iff {s : Shape} {j j' : Json} (h : Rearranges s j j') :
    j.readable = true ↔ j'.readable = true := by
  induction h with
  | permute h =>
    simp only [readable, readableMembers_iff]
    exact forall_congr' fun m => imp_congr_left h.mem_iff
  | insert _ hj => simp [readable, readableMembers, hj]
  | member _ ih =>
    simp only [readable, readableMembers_iff, List.forall_mem_append, List.forall_mem_cons, ih]
  | item _ ih =>
    simp only [readable, readableItems_iff, List.forall_mem_append, List.forall_mem_cons, ih]

end Json

open Json (Rearranges Rearranged)

variable {β : Type} {read : Json → Option β} {s : Shape}

/-! Readers that do not notice a rearrangement. -/

def Respects (s : Shape) (read : Json → Option β) : Prop :=
  ∀ ⦃j j'⦄, Rearranges s j j' → read j = read j'

theorem Respects.eq_of_rearranged (hr : Respects s read) {j j' : Json} (h : Rearranged s j j') :
    read j = read j' := by
  induction h with
  | refl => rfl
  | tail _ hstep ih => exact ih.trans (hr hstep)

/-- Neither a record nor a list is read. -/
theorem respects_of_scalar (hrecord : ∀ ms, read (.record ms) = none)
    (hlist : ∀ items, read (.list items) = none) : Respects s read := by
  intro j j' h
  cases h with
  | item => rw [hlist, hlist]
  | _ => rw [hrecord, hrecord]

theorem respects_toFloat? : Respects s Json.toFloat? :=
  respects_of_scalar (fun _ => rfl) fun _ => rfl

theorem respects_toInt32? : Respects s Json.toInt32? :=
  respects_of_scalar (fun _ => rfl) fun _ => rfl

theorem respects_toUInt8? : Respects s Json.toUInt8? :=
  respects_of_scalar (fun _ => rfl) fun _ => rfl

theorem respects_toBool? : Respects s Json.toBool? :=
  respects_of_scalar (fun _ => rfl) fun _ => rfl

theorem respects_toText? : Respects s Json.toText? :=
  respects_of_scalar (fun _ => rfl) fun _ => rfl

theorem Json.toChoice?_of_length {named : String → Option β} {ms : List (String × Json)}
    (h : ms.length ≠ 1) : (Json.record ms).toChoice? named = none := by
  rcases ms with _ | ⟨m, _ | ⟨m₂, ms⟩⟩
  · rfl
  · exact absurd rfl h
  · simp [toChoice?]

/-- A choice may be given by a record of one member. That one cannot be moved, and where a choice
is expected no member is skipped. -/
theorem respects_toChoice? (named : String → Option β) :
    Respects .plain (Json.toChoice? named) := by
  intro j j' h
  cases h with
  | @permute _ ms ms' h =>
    by_cases hone : ms.length = 1
    · obtain ⟨m, rfl⟩ := List.length_eq_one_iff.1 hone
      rw [List.singleton_perm.1 h]
    · rw [Json.toChoice?_of_length hone, Json.toChoice?_of_length (h.length_eq ▸ hone)]
  | insert h => exact h.elim
  | @member _ l r name j j' h =>
    by_cases hone : l.length + r.length = 0
    · obtain ⟨hl, hr⟩ := Nat.add_eq_zero_iff.1 hone
      obtain rfl := List.length_eq_zero_iff.1 hl
      obtain rfl := List.length_eq_zero_iff.1 hr
      cases h <;> rfl
    · rw [Json.toChoice?_of_length, Json.toChoice?_of_length]
      all_goals
        rw [List.length_append, List.length_cons]
        omega
  | item => rfl

theorem Respects.toOption? (hr : Respects s read) : Respects s (Json.toOption? read) := by
  intro j j' h
  have hread := congrArg (Option.map some) (hr h)
  cases h <;> exact hread

theorem Respects.toList? (hr : Respects s read) : Respects (.list s) (Json.toList? read) := by
  intro j j' h
  cases h with
  | item h =>
    have hread := hr h
    simp only [Json.toList?, List.mapM_append, List.mapM_cons, hread]
  | _ => rfl

/-! Members looked up by name. -/

/-- Lookups find the same, or values one of which is the other rearranged. -/
def SameMembers (inner : List (String × Shape)) (ms ms' : List (String × Json)) : Prop :=
  ∀ name, ms.lookup name = ms'.lookup name ∨
    ∃ j j', ms.lookup name = some j ∧ ms'.lookup name = some j' ∧
      Rearranges (.ofName inner name) j j'

section SameMembers

variable {inner : List (String × Shape)} {names : List String} {name : String}

theorem SameMembers.refl (ms : List (String × Json)) : SameMembers inner ms ms := fun _ => .inl rfl

theorem sameMembers_of_perm {ms ms' : List (String × Json)} (hd : (ms.map Prod.fst).Nodup)
    (h : ms.Perm ms') : SameMembers inner ms ms' := by
  intro name
  have hd' := (h.map Prod.fst).nodup_iff.1 hd
  refine .inl (Option.ext fun j => ?_)
  rw [lookup_eq_some_iff hd, lookup_eq_some_iff hd', h.mem_iff]

theorem sameMembers_of_member {j j' : Json} (l r : List (String × Json))
    (h : Rearranges (.ofName inner name) j j') :
    SameMembers inner (l ++ (name, j) :: r) (l ++ (name, j') :: r) := by
  intro n
  rw [List.lookup_append, List.lookup_append, lookup_cons_eq_ite, lookup_cons_eq_ite]
  cases l.lookup n with
  | some i => exact .inl rfl
  | none =>
    by_cases hn : n = name
    · subst hn
      rw [if_pos rfl, if_pos rfl]
      exact .inr ⟨j, j', rfl, rfl, h⟩
    · rw [if_neg hn, if_neg hn]
      exact .inl rfl

/-- A list of values stands for the members of the names in order. -/
theorem sameMembers_zip {j j' : Json} {l r : List Json} (hlt : l.length < names.length)
    (h : Rearranges (.ofPosition names inner l.length) j j') :
    SameMembers inner (names.zip (l ++ j :: r)) (names.zip (l ++ j' :: r)) := by
  have hsplit : names = names.take l.length ++ names[l.length] :: names.drop (l.length + 1) := by
    rw [← List.drop_eq_getElem_cons hlt, List.take_append_drop]
  have hlength : (names.take l.length).length = l.length := List.length_take_of_le hlt.le
  rw [Shape.ofPosition, List.getElem?_eq_getElem hlt] at h
  rw [hsplit, List.zip_append hlength, List.zip_append hlength]
  exact sameMembers_of_member _ _ h

/-- A rearranged record has the same known members, or neither is one. -/
theorem sameMembers_fields? {j j' : Json} (h : Rearranges (.record names inner) j j') :
    Option.Rel (fun f f' => SameMembers inner f.members f'.members)
      (j.fields? names) (j'.fields? names) := by
  cases h with
  | permute h =>
    have hknown := h.filter fun m => names.contains m.1
    simp only [Json.fields?, (hknown.map Prod.fst).nodup_iff]
    split_ifs with hd
    · exact .some (sameMembers_of_perm ((hknown.map Prod.fst).nodup_iff.2 hd) hknown)
    · exact .none
  | @insert _ ms name j hname =>
    have hskip : ((name, j) :: ms).filter (fun m => names.contains m.1) =
        ms.filter fun m => names.contains m.1 :=
      List.filter_cons_of_neg (mt List.contains_iff_mem.1 hname)
    simp only [Json.fields?, hskip]
    split_ifs
    · exact .some (.refl _)
    · exact .none
  | @member _ l r name j j' h =>
    by_cases hname : names.contains name
    · have hkeep : ∀ j, ((name, j) :: r).filter (fun m => names.contains m.1) =
          (name, j) :: r.filter fun m => names.contains m.1 :=
        fun j => List.filter_cons_of_pos hname
      simp only [Json.fields?, List.filter_append, hkeep, List.map_append, List.map_cons]
      split_ifs
      · exact .some (sameMembers_of_member _ _ h)
      · exact .none
    · have hskip : ∀ j, ((name, j) :: r).filter (fun m => names.contains m.1) =
          r.filter fun m => names.contains m.1 :=
        fun j => List.filter_cons_of_neg hname
      simp only [Json.fields?, List.filter_append, hskip]
      split_ifs
      · exact .some (.refl _)
      · exact .none
  | @item _ l r j j' h =>
    simp only [Json.fields?, List.length_append, List.length_cons]
    split_ifs with hle
    · exact .some (sameMembers_zip (by omega) h)
    · exact .none

variable {f f' : Fields}

theorem SameMembers.required (h : SameMembers inner f.members f'.members) (name : String)
    (hr : Respects (.ofName inner name) read) :
    f.required name read = f'.required name read := by
  simp only [Fields.required, Fields.get?]
  rcases h name with heq | ⟨j, j', hj, hj', hstep⟩
  · rw [heq]
  · rw [hj, hj']
    exact hr hstep

theorem SameMembers.defaulted (h : SameMembers inner f.members f'.members) (name : String) (d : β)
    (hr : Respects (.ofName inner name) read) :
    f.defaulted name d read = f'.defaulted name d read := by
  simp only [Fields.defaulted, Fields.get?]
  rcases h name with heq | ⟨j, j', hj, hj', hstep⟩
  · rw [heq]
  · rw [hj, hj']
    exact hr hstep

/-- A reader of records that reads all of its members by name. -/
theorem respects_of_fields {g : Fields → Option β}
    (hread : ∀ j, read j = (j.fields? names).bind g)
    (h : ∀ f f', SameMembers inner f.members f'.members → g f = g f') :
    Respects (.record names inner) read := by
  intro j j' hstep
  rw [hread, hread]
  have hfields := sameMembers_fields? hstep
  generalize j.fields? names = o, j'.fields? names = o' at hfields
  cases hfields with
  | none => rfl
  | some hf => exact h _ _ hf

end SameMembers

/-! The readers of documents. -/

def TapStep.shape : Shape := .record names []

theorem TapStep.respects_ofJson? : Respects shape ofJson? := by
  refine respects_of_fields (fun _ => rfl) fun f f' h => ?_
  simp only [h.required _ respects_toFloat?, h.defaulted _ _ respects_toFloat?]

def Regulation.shape : Shape := .record names []

theorem Regulation.respects_ofJson? : Respects shape ofJson? := by
  refine respects_of_fields (fun _ => rfl) fun f f' h => ?_
  simp only [h.required "mode" (respects_toChoice? _), h.required _ respects_toFloat?,
    h.defaulted _ _ respects_toFloat?, h.defaulted _ _ respects_toText?.toOption?,
    h.defaulted _ _ respects_toBool?]

namespace TapTable

def variants : List (String × List String × List (String × Shape)) := [
  ("table", ["low_tap_position", "neutral_position", "steps"], [("steps", .list TapStep.shape)]),
  ("linear_ratio", rangeNames ++ ["step_voltage_increment"], []),
  ("linear_phase", rangeNames ++ ["step_phase_shift_increment"], []),
  ("symmetrical_phase", rangeNames ++ ["step_voltage_increment"], []),
  ("asymmetrical_phase",
    rangeNames ++ ["step_voltage_increment", "winding_connection_angle"], [])]

def shape : Shape := .tagged variants

theorem range?_congr {f f' : Fields} (h : SameMembers [] f.members f'.members) :
    range? f = range? f' := by
  simp only [range?, h.required _ respects_toInt32?]

theorem respects_ofKind? {kind : String} {v : List String × List (String × Shape)}
    (hv : variants.lookup kind = some v) : Respects (.record v.1 v.2) (ofKind? kind) := by
  have hmem : (kind, v) ∈ variants := (lookup_eq_some_iff (by decide)).1 hv
  simp only [variants, List.mem_cons, Prod.mk.injEq, List.not_mem_nil, or_false] at hmem
  rcases hmem with ⟨rfl, rfl⟩ | ⟨rfl, rfl⟩ | ⟨rfl, rfl⟩ | ⟨rfl, rfl⟩ | ⟨rfl, rfl⟩
  · refine respects_of_fields (fun _ => rfl) fun f f' h => ?_
    simp only [h.required _ respects_toInt32?,
      h.required "steps" TapStep.respects_ofJson?.toList?]
  all_goals
    refine respects_of_fields (fun _ => rfl) fun f f' h => ?_
    simp only [range?_congr h, h.required _ respects_toFloat?]

theorem ofKind?_of_lookup_none {kind : String} (h : variants.lookup kind = none) (j : Json) :
    ofKind? kind j = none := by
  unfold ofKind?
  split
  case h_6 => rfl
  all_goals cases h

/-! The kind is taken out before the members are read, and all of them must be readable. -/

def untagged (ms : List (String × Json)) : List (String × Json) := ms.filter fun m => m.1 ≠ "kind"

def readAs? (kind : String) (j : Json) : Option (TapTable Float) :=
  if j.readable then ofKind? kind j else none

theorem readAs?_eq (kind : String) (j : Json) :
    readAs? kind j = (guard (j.readable = true) : Option Unit).bind fun _ => ofKind? kind j := by
  rw [readAs?]
  cases j.readable <;> rfl

theorem ofJson?_record (ms : List (String × Json)) :
    ofJson? (.record ms) = (kindOf? ms).bind fun kind => readAs? kind (.record (untagged ms)) := by
  simp only [ofJson?, kindOf?, readAs?_eq]
  generalize ms.filter (fun m => m.1 = "kind") = kinds
  rcases kinds with _ | ⟨⟨n, j⟩, _ | ⟨m, kinds⟩⟩
  · exact Option.bind_fun_none _
  · cases j with
    | text kind => rfl
    | _ => exact Option.bind_fun_none _
  · cases j <;> exact Option.bind_fun_none _

theorem ofJson?_list (kind : String) (items : List Json) :
    ofJson? (.list (.text kind :: items)) = readAs? kind (.list items) :=
  (readAs?_eq kind (.list items)).symm

theorem kindOf?_eq_some {ms : List (String × Json)} {kind : String} :
    kindOf? ms = some kind ↔ ms.filter (fun m => m.1 = "kind") = [("kind", .text kind)] := by
  unfold kindOf?
  constructor
  · intro h
    split at h
    · rename_i n k hfilter
      obtain ⟨-, hn⟩ := List.mem_filter.1 (hfilter ▸ List.mem_singleton_self (n, Json.text k))
      cases h
      obtain rfl : n = "kind" := of_decide_eq_true hn
      exact hfilter
    · cases h
  · intro h
    rw [h]

/-- Only a table of a known kind can be read, and then its members are those of a record. -/
theorem readAs?_congr {kind : String} {j j' : Json}
    (h : ∀ v, variants.lookup kind = some v → j = j' ∨ Rearranges (.record v.1 v.2) j j') :
    readAs? kind j = readAs? kind j' := by
  unfold readAs?
  cases hv : variants.lookup kind with
  | none => rw [ofKind?_of_lookup_none hv, ofKind?_of_lookup_none hv, ite_self, ite_self]
  | some v =>
    rcases h v hv with rfl | h
    · rfl
    · simp only [h.readable_iff, respects_ofKind? hv h]

/-- The kind of a record and what is left without it decide what is read. -/
theorem ofJson?_record_congr {ms ms' : List (String × Json)}
    (hkind : ∀ k, kindOf? ms = some k ↔ kindOf? ms' = some k)
    (h : ∀ v, Shape.ofKind? variants (kindOf? ms) = some v →
      untagged ms = untagged ms' ∨
        Rearranges (.record v.1 v.2) (.record (untagged ms)) (.record (untagged ms'))) :
    ofJson? (.record ms) = ofJson? (.record ms') := by
  rw [ofJson?_record, ofJson?_record, ← Option.ext hkind]
  cases hk : kindOf? ms with
  | none => rfl
  | some k =>
    refine readAs?_congr fun v hv => ?_
    rw [hk] at h
    exact (h v hv).imp_left fun heq => by rw [heq]

theorem ofJson?_permute {ms ms' : List (String × Json)} (h : ms.Perm ms') :
    ofJson? (.record ms) = ofJson? (.record ms') := by
  refine ofJson?_record_congr (fun k => ?_) fun v _ => .inr (.permute (h.filter _))
  rw [kindOf?_eq_some, kindOf?_eq_some, ← List.perm_singleton, ← List.perm_singleton]
  exact ⟨fun hk => (h.filter _).symm.trans hk, fun hk => (h.filter _).trans hk⟩

theorem ofJson?_insert {ms : List (String × Json)} {name : String} {j : Json}
    (h : shape.Skips ms name) (hj : j.readable = true) :
    ofJson? (.record ms) = ofJson? (.record ((name, j) :: ms)) := by
  obtain ⟨hname, hskip⟩ := h
  refine ofJson?_record_congr (fun k => ?_) fun v hv => .inr ?_
  · rw [kindOf?_eq_some, kindOf?_eq_some, List.filter_cons_of_neg (by simpa using hname)]
  · have hrest : untagged ((name, j) :: ms) = (name, j) :: untagged ms :=
      List.filter_cons_of_pos (decide_eq_true hname)
    rw [hrest]
    exact .insert (hskip v hv) hj

theorem ofJson?_member {l r : List (String × Json)} {name : String} {j j' : Json}
    (h : Rearranges (shape.member (l ++ (name, j) :: r) name) j j') :
    ofJson? (.record (l ++ (name, j) :: r)) = ofJson? (.record (l ++ (name, j') :: r)) := by
  by_cases hname : name = "kind"
  · -- neither value is a text, so no kind is stated before or after
    subst hname
    have hnone : ∀ i, (∀ k, i ≠ .text k) → ∀ k, kindOf? (l ++ ("kind", i) :: r) ≠ some k := by
      intro i hi k hk
      rw [kindOf?_eq_some] at hk
      have hmem : ("kind", i) ∈ (l ++ ("kind", i) :: r).filter fun m => m.1 = "kind" := by simp
      rw [hk, List.mem_singleton] at hmem
      exact hi k (congrArg Prod.snd hmem)
    have hj : ∀ k, j ≠ .text k := by
      rintro k rfl
      cases h
    have hj' : ∀ k, j' ≠ .text k := by
      rintro k rfl
      cases h
    refine ofJson?_record_congr (fun k => iff_of_false (hnone j hj k) (hnone j' hj' k)) ?_
    rw [Option.eq_none_iff_forall_ne_some.2 (hnone j hj)]
    exact nofun
  · have hrest : ∀ i, untagged (l ++ (name, i) :: r) = untagged l ++ (name, i) :: untagged r := by
      intro i
      simp [untagged, hname]
    refine ofJson?_record_congr (fun k => ?_) fun v hv => .inr ?_
    · simp [kindOf?_eq_some, hname]
    · rw [hrest, hrest]
      refine .member ?_
      simpa only [shape, Shape.member, if_neg hname, hv, Option.elim_some] using h

theorem ofJson?_item {l r : List Json} {j j' : Json}
    (h : Rearranges (shape.item (l ++ j :: r) l.length) j j') :
    ofJson? (.list (l ++ j :: r)) = ofJson? (.list (l ++ j' :: r)) := by
  cases l with
  | nil => cases h <;> rfl
  | cons i l =>
    cases i with
    | text kind =>
      rw [List.cons_append, List.cons_append, ofJson?_list, ofJson?_list]
      refine readAs?_congr fun v hv => .inr (.item ?_)
      have hkind : Shape.ofKind? variants (kindOfItems? (.text kind :: l ++ j :: r)) = some v := hv
      simpa only [shape, List.length_cons, Shape.item, hkind, Option.elim_some] using h
    | _ => rfl

theorem respects_ofJson? : Respects shape ofJson? := by
  intro j j' h
  cases h with
  | permute h => exact ofJson?_permute h
  | insert h hj => exact ofJson?_insert h hj
  | member h => exact ofJson?_member h
  | item h => exact ofJson?_item h

end TapTable

def TapChangerSpec.shape : Shape :=
  .record names [("table", TapTable.shape), ("regulation", Regulation.shape)]

theorem TapChangerSpec.respects_ofJson? : Respects shape ofJson? := by
  refine respects_of_fields (fun _ => rfl) fun f f' h => ?_
  simp only [h.required "id" respects_toText?, h.required "table" TapTable.respects_ofJson?,
    h.defaulted _ _ respects_toInt32?.toOption?,
    h.defaulted "regulation" none Regulation.respects_ofJson?.toOption?]

def RawEnd.shape : Shape :=
  .record names
    [("ratio_tap_changer", TapChangerSpec.shape), ("phase_tap_changer", TapChangerSpec.shape)]

theorem RawEnd.respects_ofJson? : Respects shape ofJson? := by
  refine respects_of_fields (fun _ => rfl) fun f f' h => ?_
  simp only [h.required _ respects_toFloat?, h.defaulted _ _ respects_toFloat?,
    h.required _ respects_toText?, h.defaulted _ _ respects_toUInt8?,
    h.defaulted "ratio_tap_changer" none TapChangerSpec.respects_ofJson?.toOption?,
    h.defaulted "phase_tap_changer" none TapChangerSpec.respects_ofJson?.toOption?]

def RawTwoWinding.shape : Shape :=
  .record ["id", "end1", "end2"] [("end1", RawEnd.shape), ("end2", RawEnd.shape)]

theorem RawTwoWinding.respects_ofJson? : Respects shape ofJson? := by
  refine respects_of_fields (fun _ => rfl) fun f f' h => ?_
  simp only [h.required _ respects_toText?, h.required "end1" RawEnd.respects_ofJson?,
    h.required "end2" RawEnd.respects_ofJson?]

def RawThreeWinding.shape : Shape :=
  .record ["id", "windings"] [("windings", .list RawEnd.shape)]

theorem RawThreeWinding.respects_ofJson? : Respects shape ofJson? := by
  refine respects_of_fields (fun _ => rfl) fun f f' h => ?_
  simp only [h.required _ respects_toText?, h.required "windings" RawEnd.respects_ofJson?.toList?]

namespace Document

def shape : Shape :=
  .record ["two_winding", "three_winding"]
    [("two_winding", .list RawTwoWinding.shape), ("three_winding", .list RawThreeWinding.shape)]

theorem respects_ofJson? : Respects shape ofJson? := by
  refine respects_of_fields (fun _ => rfl) fun f f' h => ?_
  simp only [h.defaulted "two_winding" [] RawTwoWinding.respects_ofJson?.toList?,
    h.defaulted "three_winding" [] RawThreeWinding.respects_ofJson?.toList?]

/-- A document is read the same whatever the order of members, and with or without members that
are skipped; if one form of it is refused, so is the other. -/
theorem ofJson?_rearranged {j j' : Json} (h : Rearranged shape j j') : ofJson? j = ofJson? j' :=
  respects_ofJson?.eq_of_rearranged h

/-- A tap table with its kind moved to the end and a member put before the others. -/
theorem ofJson?_rearranged_table :
    let kind : String × Json := ("kind", .text "linear_ratio")
    let rest : List (String × Json) :=
      [("low_step", .ofInt 1), ("high_step", .ofInt 3), ("neutral_step", .ofInt 2),
        ("step_voltage_increment", .ofInt 1)]
    let document (table : Json) : Json :=
      .record [("three_winding", .list [.record [("id", .text "T"), ("windings", .list [.record
        [("r", .ofInt 0), ("x", .ofInt 1), ("rated_u", .ofInt 110), ("terminal", .text "A"),
          ("ratio_tap_changer", .record [("id", .text "R"), ("table", table)])]])]])]
    let j := document (.record (kind :: rest))
    let j' := document (.record (("note", .null) :: (rest ++ [kind])))
    Rearranged shape j j' ∧ ofJson? j = ofJson? j' ∧ (ofJson? j).isSome := by
  intro kind rest document j j'
  have hwithin : ∀ {t t' : Json}, Rearranges TapTable.shape t t' →
      Rearranges shape (document t) (document t') := by
    intro t t' h
    refine @Rearranges.member _ [] [] "three_winding" _ _ ?_
    refine @Rearranges.item _ [] [] _ _ ?_
    refine @Rearranges.member _ [("id", .text "T")] [] "windings" _ _ ?_
    refine @Rearranges.item _ [] [] _ _ ?_
    refine @Rearranges.member _
      [("r", .ofInt 0), ("x", .ofInt 1), ("rated_u", .ofInt 110), ("terminal", .text "A")] []
      "ratio_tap_changer" _ _ ?_
    exact @Rearranges.member _ [("id", .text "R")] [] "table" _ _ h
  have hmoved : Rearranges TapTable.shape (.record (kind :: rest)) (.record (rest ++ [kind])) :=
    .permute (List.perm_append_singleton kind rest).symm
  have hskips : TapTable.shape.Skips (rest ++ [kind]) "note" :=
    ⟨by decide, by rintro v ⟨⟩; decide⟩
  have h : Rearranged shape j j' :=
    (Relation.ReflTransGen.single (hwithin hmoved)).tail (hwithin (.insert hskips rfl))
  exact ⟨h, ofJson?_rearranged h, by decide +kernel⟩

end Document

end EquivalentCircuit
