import Mathlib.Data.Option.Basic
import EquivalentCircuit.Policy.Format
import EquivalentCircuit.Proofs.PolicyTrees
import EquivalentCircuit.Proofs.TomlText

/-! Policies written as TOML and read back. Within a table values are written before the tables that
lie beside them, so what is read is the tree that was written but for the order of members. -/

namespace EquivalentCircuit

namespace Toml

def isTable : Toml → Bool
  | table _ _ | tables _ => true
  | _ => false

def inline (ms : Members) : Members := ms.filter fun m => !isTable m.2

mutual

/-- The tree with values before tables, as a text has them. -/
def arranged : Toml → Toml
  | table kind ms => table kind (inline ms ++ arrangedTables ms)
  | tables elements => tables (arrangedElements elements)
  | v => v

def arrangedTables : Members → Members
  | [] => []
  | (n, v) :: ms =>
    if isTable v then (n, arranged v) :: arrangedTables ms else arrangedTables ms

def arrangedElements : List Members → List Members
  | [] => []
  | ms :: rest => (inline ms ++ arrangedTables ms) :: arrangedElements rest

end

theorem arranged_of_not_isTable {v : Toml} (h : isTable v = false) : arranged v = v := by
  cases v <;> first | rfl | cases h

theorem inline_cons_of_value {n : String} {v : Toml} (h : isTable v = false) (ms : Members) :
    inline ((n, v) :: ms) = (n, v) :: inline ms ∧
      arrangedTables ((n, v) :: ms) = arrangedTables ms := by
  simp [inline, arrangedTables, h]

theorem inline_cons_of_table {n : String} {v : Toml} (h : isTable v = true) (ms : Members) :
    inline ((n, v) :: ms) = inline ms ∧
      arrangedTables ((n, v) :: ms) = (n, arranged v) :: arrangedTables ms := by
  simp [inline, arrangedTables, h]

theorem names_arranged (ms : Members) :
    ∀ m ∈ inline ms ++ arrangedTables ms, m.1 ∈ ms.map Prod.fst := by
  induction ms with
  | nil => exact List.forall_mem_nil _
  | cons e ms ih =>
    obtain ⟨n, v⟩ := e
    rw [List.map_cons]
    intro m hm
    cases hv : isTable v with
    | false =>
      rw [(inline_cons_of_value hv ms).1, (inline_cons_of_value hv ms).2, List.cons_append,
        List.mem_cons] at hm
      rcases hm with rfl | hm
      · exact List.mem_cons_self
      · exact List.mem_cons_of_mem _ (ih m hm)
    | true =>
      rw [(inline_cons_of_table hv ms).1, (inline_cons_of_table hv ms).2,
        List.perm_middle.mem_iff, List.mem_cons] at hm
      rcases hm with rfl | hm
      · exact List.mem_cons_self
      · exact List.mem_cons_of_mem _ (ih m hm)

theorem lookup_eq_none {ms : Members} {name : String} (h : name ∉ ms.map Prod.fst) :
    ms.lookup name = none := by
  rw [List.lookup_eq_none_iff]
  intro m hm
  rw [bne_iff_ne]
  rintro rfl
  exact h (List.mem_map_of_mem hm)

theorem lookup_arranged {ms : Members} (h : (ms.map Prod.fst).Nodup) (name : String) :
    (inline ms ++ arrangedTables ms).lookup name = (ms.lookup name).map arranged := by
  induction ms with
  | nil => rfl
  | cons e ms ih =>
    obtain ⟨n, v⟩ := e
    obtain ⟨hn, hms⟩ := List.nodup_cons.1 h
    have hrest := ih hms
    rw [List.lookup_append] at hrest ⊢
    cases hv : isTable v with
    | false =>
      rw [(inline_cons_of_value hv ms).1, (inline_cons_of_value hv ms).2, lookup_cons_eq_ite,
        lookup_cons_eq_ite]
      by_cases hname : name = n
      · rw [if_pos hname, if_pos hname, Option.map_some, arranged_of_not_isTable hv]
        rfl
      · rw [if_neg hname, if_neg hname, hrest]
    | true =>
      rw [(inline_cons_of_table hv ms).1, (inline_cons_of_table hv ms).2, lookup_cons_eq_ite,
        lookup_cons_eq_ite]
      by_cases hname : name = n
      · -- the name stands nowhere else, so not among the values either
        subst hname
        rw [lookup_eq_none hn, Option.map_none, Option.or_eq_none_iff] at hrest
        rw [if_pos rfl, if_pos rfl, hrest.1]
        rfl
      · rw [if_neg hname, if_neg hname, hrest]

theorem readsBack_arranged : ReadsBack (arranged : Toml → Toml) where
  members := by
    rintro names ms rfl hd -
    have hall : (inline ms ++ arrangedTables ms).filter
        (fun m => (ms.map Prod.fst).contains m.1) = inline ms ++ arrangedTables ms :=
      List.filter_eq_self.2 fun m hm => List.contains_iff_mem.2 (names_arranged ms m hm)
    exact ⟨_, congrArg some hall, lookup_arranged hd⟩
  flag := fun _ => rfl
  name := fun _ _ => rfl
  triple := fun _ _ _ => rfl

/-! Statements one after the other. -/

/-- What stands at a path of a tree, which is built again from whatever stands there. -/
def InForce (path : List String) (rebuild : Members → Members) : Prop :=
  ∀ change inner, updateAt false change path .header (rebuild inner) =
    (change .header inner).map rebuild

theorem inForce_nil : InForce [] id := fun _ _ => Option.map_id'.symm

theorem updateAt_append (dotted : Bool) (change : TableKind → Members → Option Members)
    (path path' : List String) (kind : TableKind) (ms : Members) :
    updateAt dotted change (path ++ path') kind ms =
      updateAt dotted (updateAt dotted change path') path kind ms := by
  induction path generalizing kind ms with
  | nil => rfl
  | cons k path ih => simp only [List.cons_append, updateAt, ih]

section Names

variable {k : String} {ms : Members}

theorem replace_append (hk : k ∉ ms.map Prod.fst) (v w : Toml) :
    replace k w (ms ++ [(k, v)]) = ms ++ [(k, w)] := by
  induction ms with
  | nil => exact if_pos rfl
  | cons m ms ih =>
    obtain ⟨n, u⟩ := m
    rw [List.map_cons, List.mem_cons, not_or] at hk
    rw [List.cons_append, replace, if_neg (Ne.symm hk.1), ih hk.2, List.cons_append]

theorem lookup_append (hk : k ∉ ms.map Prod.fst) (v : Toml) :
    (ms ++ [(k, v)]).lookup k = some v := by
  rw [List.lookup_append, lookup_eq_none hk, lookup_cons_eq_ite, if_pos rfl]
  rfl

end Names

def entries (ms : Members) : List Statement := ms.map fun m => .entry [m.1] m.2

variable {path : List String} {rebuild : Members → Members} {k : String} {inner ms : Members}

theorem InForce.table (h : InForce path rebuild) (hk : k ∉ ms.map Prod.fst) :
    InForce (path ++ [k]) fun inner => rebuild (ms ++ [(k, .table .header inner)]) := by
  intro change inner
  rw [updateAt_append, h]
  simp only [updateAt, lookup_append hk]
  cases change .header inner with
  | none => rfl
  | some inner' => exact congrArg (fun ms => some (rebuild ms)) (replace_append hk _ _)

theorem InForce.element (h : InForce path rebuild) (hk : k ∉ ms.map Prod.fst)
    (elements : List Members) :
    InForce (path ++ [k]) fun inner => rebuild (ms ++ [(k, .tables (elements ++ [inner]))]) := by
  intro change inner
  rw [updateAt_append, h]
  simp only [updateAt, lookup_append hk, List.getLast?_concat, List.dropLast_concat,
    Option.bind_eq_bind, Option.bind_some]
  cases change .header inner with
  | none => rfl
  | some inner' => exact congrArg (fun ms => some (rebuild ms)) (replace_append hk _ _)

/-- Entries with new names are added at the end. -/
theorem foldlM_entries (h : InForce path rebuild) (hd : ((inner ++ ms).map Prod.fst).Nodup) :
    (entries ms).foldlM Draft.add ⟨rebuild inner, path⟩ =
      some ⟨rebuild (inner ++ ms), path⟩ := by
  induction ms generalizing inner with
  | nil => rw [List.append_nil]; rfl
  | cons m ms ih =>
    have hsplit : inner ++ m :: ms = inner ++ [m] ++ ms := List.append_cons ..
    rw [hsplit] at hd
    have hm : m.1 ∉ inner.map Prod.fst := by
      rw [List.map_append, List.map_append] at hd
      exact fun hmem => (List.nodup_append.1 (List.nodup_append.1 hd).1).2.2 _ hmem _
        (List.mem_singleton_self _) rfl
    have hadd : Draft.add ⟨rebuild inner, path⟩ (.entry [m.1] m.2) =
        some ⟨rebuild (inner ++ [m]), path⟩ := by
      have hinsert : addEntry [m.1] m.2 .header inner = some (inner ++ [m]) := by
        simp [addEntry, updateAt, insertEntry, lookup_eq_none hm]
      rw [Draft.add, h, hinsert]
      rfl
    rw [entries, List.map_cons, List.foldlM_cons, hadd, hsplit]
    exact ih hd

/-- A table under its own header. -/
theorem foldlM_table (h : InForce path rebuild) (hk : k ∉ inner.map Prod.fst)
    (hd : (ms.map Prod.fst).Nodup) (header : List String) :
    (Statement.table (path ++ [k]) :: entries ms).foldlM Draft.add ⟨rebuild inner, header⟩ =
      some ⟨rebuild (inner ++ [(k, .table .header ms)]), path ++ [k]⟩ := by
  have hopen : Draft.add ⟨rebuild inner, header⟩ (.table (path ++ [k])) =
      some ⟨rebuild (inner ++ [(k, .table .header [])]), path ++ [k]⟩ := by
    simp [Draft.add, h _ inner, openTable, lookup_eq_none hk]
  rw [List.foldlM_cons, hopen]
  exact foldlM_entries (h.table hk) hd

/-- Tables under one header that is repeated, after some of them. -/
theorem foldlM_elements (h : InForce path rebuild) (hk : k ∉ inner.map Prod.fst)
    {elements more : List Members} (hd : ∀ ms ∈ more, (ms.map Prod.fst).Nodup) :
    (more.flatMap fun ms => Statement.element (path ++ [k]) :: entries ms).foldlM Draft.add
        ⟨rebuild (inner ++ [(k, .tables elements)]), path ++ [k]⟩ =
      some ⟨rebuild (inner ++ [(k, .tables (elements ++ more))]), path ++ [k]⟩ := by
  induction more generalizing elements with
  | nil => rw [List.append_nil]; rfl
  | cons ms more ih =>
    obtain ⟨hms, hmore⟩ := List.forall_mem_cons.1 hd
    have hopen : Draft.add ⟨rebuild (inner ++ [(k, .tables elements)]), path ++ [k]⟩
        (.element (path ++ [k])) =
          some ⟨rebuild (inner ++ [(k, .tables (elements ++ [[]]))]), path ++ [k]⟩ := by
      simp [Draft.add, h _ (inner ++ _), openElement, lookup_append hk, replace_append hk]
    rw [List.flatMap_cons, List.cons_append, List.foldlM_cons, hopen,
      List.append_cons elements ms more]
    have hentries := @foldlM_entries _ _ [] ms (h.element hk elements) hms
    refine (List.foldlM_append ..).trans ?_
    rw [hentries]
    exact ih hmore

/-- Tables under one header that is repeated. -/
theorem foldlM_tables (h : InForce path rebuild) (hk : k ∉ inner.map Prod.fst)
    {ms : Members} {more : List Members}
    (hd : ∀ ms' ∈ ms :: more, (ms'.map Prod.fst).Nodup) (header : List String) :
    ((ms :: more).flatMap fun ms => Statement.element (path ++ [k]) :: entries ms).foldlM Draft.add
        ⟨rebuild inner, header⟩ =
      some ⟨rebuild (inner ++ [(k, .tables (ms :: more))]), path ++ [k]⟩ := by
  obtain ⟨hms, hmore⟩ := List.forall_mem_cons.1 hd
  have hopen : Draft.add ⟨rebuild inner, header⟩ (.element (path ++ [k])) =
      some ⟨rebuild (inner ++ [(k, .tables [[]])]), path ++ [k]⟩ := by
    simp [Draft.add, h _ inner, openElement, lookup_eq_none hk]
  rw [List.flatMap_cons, List.cons_append, List.foldlM_cons, hopen]
  have hentries := @foldlM_entries _ _ [] ms (h.element hk []) hms
  refine (List.foldlM_append ..).trans ?_
  change (entries ms).foldlM Draft.add ⟨rebuild (inner ++ [(k, .tables [[]])]), path ++ [k]⟩ = _
    at hentries
  rw [hentries]
  exact foldlM_elements h hk hmore

/-- A document with values, a table of values and a table in which values and tables under a
repeated header lie. -/
theorem foldlM_document {front one two : Members} {a b : String} (k : String) {ms : Members}
    {more : List Members} (hfront : (front.map Prod.fst).Nodup) (hone : (one.map Prod.fst).Nodup)
    (htwo : (two.map Prod.fst).Nodup) (hd : ∀ ms' ∈ ms :: more, (ms'.map Prod.fst).Nodup)
    (ha : a ∉ front.map Prod.fst) (hb : b ∉ (front ++ [(a, table .header one)]).map Prod.fst)
    (hk : k ∉ two.map Prod.fst) :
    (entries front ++ (Statement.table [a] :: entries one) ++
        (Statement.table [b] :: entries two) ++
        (ms :: more).flatMap fun ms => Statement.element [b, k] :: entries ms).foldlM Draft.add
          ⟨[], []⟩ =
      some ⟨front ++ [(a, table .header one)] ++
        [(b, table .header (two ++ [(k, .tables (ms :: more))]))], [b, k]⟩ := by
  have h₁ : (entries front).foldlM Draft.add ⟨[], []⟩ = some ⟨front, []⟩ :=
    foldlM_entries inForce_nil hfront
  have h₂ := foldlM_table inForce_nil ha hone []
  have h₃ := foldlM_table inForce_nil hb htwo ([] ++ [a])
  have h₄ := foldlM_tables (inForce_nil.table hb) hk hd ([] ++ [b])
  rw [List.foldlM_append, List.foldlM_append, List.foldlM_append, h₁]
  refine (congrArg (· >>= _) (congrArg (· >>= _) h₂)).trans ?_
  refine (congrArg (· >>= _) h₃).trans ?_
  exact h₄

/-! The statements of a policy. -/

def statements (p : Policy) : List Statement :=
  entries [("phase_angle_clock_enabled", .bool p.clocks)] ++
    (Statement.table ["xfmr2"] :: entries (membersOf p.twoWinding.toTree)) ++
    (Statement.table ["xfmr3"] :: entries [("rated_uf", .text p.threeWinding.starVoltage.name)]) ++
    [membersOf p.threeWinding.legs.one.toTree, membersOf p.threeWinding.legs.two.toTree,
      membersOf p.threeWinding.legs.three.toTree].flatMap fun ms =>
        Statement.element ["xfmr3", "windings"] :: entries ms

theorem simple_twoWinding (p : TwoWindingPolicy) : ∀ m ∈ membersOf p.toTree, Simple m.2 := by
  simpa [TwoWindingPolicy.toTree, PolicyTarget.ofMembers, PolicyTarget.ofName,
    PolicyTarget.ofFlag, membersOf] using
    ⟨Simple.text (TapPlacement.isWord_name _), Simple.text (ShuntPlacement.isWord_name _),
      Simple.text (RatioPlacement.isWord_name _), Simple.bool _⟩

theorem simple_leg (p : LegPolicy) : ∀ m ∈ membersOf p.toTree, Simple m.2 := by
  simpa [LegPolicy.toTree, PolicyTarget.ofMembers, PolicyTarget.ofName,
    PolicyTarget.ofFlag, membersOf] using
    ⟨Simple.bool _, Simple.text (LegShunt.isWord_name _), Simple.bool _⟩

theorem ofStatements_statements (p : Policy) :
    ofStatements (statements p) = some (arranged p.toTree) := by
  have hleg : ∀ l : LegPolicy, ((membersOf l.toTree).map Prod.fst).Nodup :=
    fun l => (by decide : LegPolicy.names.Nodup)
  have hfold := @foldlM_document [("phase_angle_clock_enabled", .bool p.clocks)]
    (membersOf p.twoWinding.toTree) [("rated_uf", .text p.threeWinding.starVoltage.name)]
    "xfmr2" "xfmr3" "windings" (membersOf p.threeWinding.legs.one.toTree)
    [membersOf p.threeWinding.legs.two.toTree, membersOf p.threeWinding.legs.three.toTree]
    (List.nodup_singleton _) (by decide : TwoWindingPolicy.names.Nodup) (List.nodup_singleton _)
    (by simpa using ⟨hleg _, hleg _, hleg _⟩) (by simp) (by simp) (by simp)
  rw [ofStatements, statements, hfold]
  rfl

theorem memberLines_simple {ms : Members} (h : ∀ m ∈ ms, Simple m.2) (path : List String) :
    memberLines path ms = [] := by
  induction ms with
  | nil => rfl
  | cons m ms ih =>
    obtain ⟨n, v⟩ := m
    obtain ⟨hv, hms⟩ := List.forall_mem_cons.1 h
    rw [memberLines, ih hms]
    cases hv <;> rfl

theorem elementLines_cons_simple {ms : Members} (h : ∀ m ∈ ms, Simple m.2) (path : List String)
    (more : List Members) :
    elementLines path (ms :: more) =
      ["", "[[" ++ dottedPath path ++ "]]"] ++ entryLines ms ++ elementLines path more := by
  rw [elementLines, memberLines_simple h, List.append_nil]

/-- The lines of a document, table by table. -/
theorem lines_document {one : Members} (hone : ∀ m ∈ one, Simple m.2) (a b c k n : String)
    (kind : TableKind) (s : String) (flag : Bool) (elements : List Members) {ms : Members}
    (hms : ms = [(a, table kind one), (b, table kind [(n, text s), (k, tables elements)]),
      (c, bool flag)]) :
    entryLines ms ++ memberLines [] ms =
      entryLines [(c, bool flag)] ++
        (["", "[" ++ dottedPath [a] ++ "]"] ++ entryLines one) ++
        (["", "[" ++ dottedPath [b] ++ "]"] ++ entryLines [(n, text s)]) ++
        elementLines [b, k] elements := by
  subst hms
  cases flag <;>
    simp [entryLines, memberLines, tableLines, valueText, memberLines_simple hone]

/-- The lines of a policy, table by table. -/
theorem lines_policy (p : Policy) :
    entryLines (membersOf p.toTree) ++ memberLines [] (membersOf p.toTree) =
      entryLines [("phase_angle_clock_enabled", .bool p.clocks)] ++
        (["", "[" ++ dottedPath ["xfmr2"] ++ "]"] ++ entryLines (membersOf p.twoWinding.toTree)) ++
        (["", "[" ++ dottedPath ["xfmr3"] ++ "]"] ++
          entryLines [("rated_uf", .text p.threeWinding.starVoltage.name)]) ++
        elementLines ["xfmr3", "windings"] [membersOf p.threeWinding.legs.one.toTree,
          membersOf p.threeWinding.legs.two.toTree, membersOf p.threeWinding.legs.three.toTree] :=
  lines_document (simple_twoWinding _) _ _ _ _ _ _ _ _ _ rfl

theorem lists_statements (p : Policy) :
    Lists (entryLines (membersOf p.toTree) ++ memberLines [] (membersOf p.toTree))
      (statements p) := by
  have hclocks := @lists_entry "phase_angle_clock_enabled" _ (by decide) (.bool p.clocks)
  have hstar := @lists_entry "rated_uf" _ (by decide)
    (.text (StarVoltage.isWord_name p.threeWinding.starVoltage))
  have htwo := @lists_entries (membersOf p.twoWinding.toTree)
    (List.forall_mem_map.1 TwoWindingPolicy.isWord_names) (simple_twoWinding p.twoWinding)
  have hxfmr2 := @lists_header ["xfmr2"] (by decide) (List.cons_ne_nil _ _) (by decide)
  have hxfmr3 := @lists_header ["xfmr3"] (by decide) (List.cons_ne_nil _ _) (by decide)
  have hwindings := @lists_element ["xfmr3", "windings"] (by decide) (List.cons_ne_nil _ _)
    (by decide)
  have hleg := fun l : LegPolicy => hwindings.append (@lists_entries (membersOf l.toTree)
    (List.forall_mem_map.1 LegPolicy.isWord_names) (simple_leg l))
  have hlegs := (hleg p.threeWinding.legs.one).append
    ((hleg p.threeWinding.legs.two).append (hleg p.threeWinding.legs.three))
  rw [lines_policy, elementLines_cons_simple (simple_leg _),
    elementLines_cons_simple (simple_leg _), elementLines_cons_simple (simple_leg _),
    elementLines, List.append_nil]
  exact ((hclocks.append (hxfmr2.append htwo)).append (hxfmr3.append hstar)).append hlegs

end Toml

/-- A policy is read back from its TOML text. -/
theorem Policy.read?_toml (p : Policy) : read? .toml (p.text .toml) = some p := by
  have hread : Toml.read? (p.text .toml) = some (Toml.arranged p.toTree) := by
    refine ((Toml.lists_statements p).read? ?_).trans (Toml.ofStatements_statements p)
    rw [Toml.lines_policy]
    cases p.clocks <;>
    · rintro _ ⟨⟩
      decide
  rw [read?, hread]
  exact Toml.readsBack_arranged.ofTree?_toTree p

end EquivalentCircuit
