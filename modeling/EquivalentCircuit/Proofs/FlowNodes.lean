import EquivalentCircuit.Proofs.FlowTexts

/-! JSON texts of plain values as YAML documents: the tokens of a value are those of one node, in
which texts are quoted. -/

namespace EquivalentCircuit

namespace Yaml

open Json

mutual

def flowNode : Json → Node
  | .bool b => .scalar none none .plain (if b then "true" else "false")
  | .text s => .scalar none none .quoted s
  | .list items => .sequence none (flowItems items)
  | .record ms => .mapping none (flowEntries ms)
  | _ => .empty

def flowItems : List Json → List Node
  | [] => []
  | j :: items => flowNode j :: flowItems items

def flowEntries : List (String × Json) → List (Node × Node)
  | [] => []
  | (n, j) :: ms => (.scalar none none .quoted n, flowNode j) :: flowEntries ms

end

theorem flowItems_eq (items : List Json) : flowItems items = items.map flowNode := by
  induction items with
  | nil => rfl
  | cons j items ih => rw [flowItems, ih, List.map_cons]

theorem flowEntries_eq (ms : List (String × Json)) :
    flowEntries ms = ms.map fun m => (.scalar none none .quoted m.1, flowNode m.2) := by
  induction ms with
  | nil => rfl
  | cons m ms ih =>
    obtain ⟨n, j⟩ := m
    rw [flowEntries, ih, List.map_cons]

namespace Build

variable {t u : Token} {us : List Token} {anchors : List (String × Nat)}
  {handles : List (String × Tag)}

theorem tokenIf_self (t : Token) (us : List Token) :
    tokenIf t ⟨t :: us, anchors, handles⟩ = some (true, ⟨us, anchors, handles⟩) := by
  have hpeek : peek ⟨t :: us, anchors, handles⟩ = some (some t, ⟨t :: us, anchors, handles⟩) := rfl
  rw [tokenIf, bind_of_eq hpeek, if_pos rfl]
  rfl

theorem tokenIf_of_head? (h : us.head? ≠ some t) :
    tokenIf t ⟨us, anchors, handles⟩ = some (false, ⟨us, anchors, handles⟩) := by
  have hpeek : peek ⟨us, anchors, handles⟩ = some (us.head?, ⟨us, anchors, handles⟩) := rfl
  rw [tokenIf, bind_of_eq hpeek, if_neg h]
  rfl

theorem tokenIf_of_ne (h : u ≠ t) :
    tokenIf t ⟨u :: us, anchors, handles⟩ = some (false, ⟨u :: us, anchors, handles⟩) :=
  tokenIf_of_head? fun heq => h (Option.some.inj heq)

end Build

open Build

def beginsFlow : Token → Bool
  | .scalar _ _ | .flowSequenceStart | .flowMappingStart => true
  | _ => false

theorem ne_of_beginsFlow {t u : Token} (ht : beginsFlow t = true) (hu : beginsFlow u = false) :
    t ≠ u := by
  rintro rfl
  exact ne_true_of_eq_false hu ht

theorem flowTokens_begins {n : Nat} {j : Json} (h : Plain n j) :
    ∃ t ts, flowTokens j = t :: ts ∧ beginsFlow t = true := by
  cases h with
  | bool b => exact ⟨_, _, rfl, rfl⟩
  | text h => exact ⟨_, _, rfl, rfl⟩
  | list h => exact ⟨_, _, rfl, rfl⟩
  | record hnames hvalues => exact ⟨_, _, rfl, rfl⟩

section Building

variable {place : Place} {fuel : Nat} {t : Token} {us : List Token} {anchors : List (String × Nat)}
  {handles : List (String × Tag)}

theorem buildUnless_of_contains {ends : List Token} (h : ends.contains t = false) :
    buildUnless place ends (fuel + 1) ⟨t :: us, anchors, handles⟩ =
      buildNode place fuel ⟨t :: us, anchors, handles⟩ := by
  have hcomes : comes ends ⟨t :: us, anchors, handles⟩ =
      some (false, ⟨t :: us, anchors, handles⟩) := by
    rw [← h]
    rfl
  rw [buildUnless, bind_of_eq hcomes]
  rfl

/-- What is built unless the collection ends here. -/
theorem unlessEnded {β : Type} {ended : Token} (last : β) (more : Build β) (h : t ≠ ended) :
    (tokenIf ended >>= fun e => if e then pure last else more) ⟨t :: us, anchors, handles⟩ =
      more ⟨t :: us, anchors, handles⟩ := by
  rw [bind_of_eq (tokenIf_of_ne h)]
  rfl

theorem buildNode_sequence (h : t ≠ .flowSequenceEnd) :
    buildNode place (fuel + 1) ⟨.flowSequenceStart :: t :: us, anchors, handles⟩ =
      (buildFlowItems fuel >>= fun items => pure (.sequence none items))
        ⟨t :: us, anchors, handles⟩ := by
  refine Eq.trans ?_ (unlessEnded (.sequence none []) _ h)
  rfl

theorem buildNode_mapping (h : t ≠ .flowMappingEnd) :
    buildNode place (fuel + 1) ⟨.flowMappingStart :: t :: us, anchors, handles⟩ =
      (buildFlowEntries fuel >>= fun entries => pure (.mapping none entries))
        ⟨t :: us, anchors, handles⟩ := by
  refine Eq.trans ?_ (unlessEnded (.mapping none []) _ h)
  rfl

/-- What follows one of the items or entries of a flow collection. -/
def afterOne {β : Type} (ended : Token) (more : Build (List β)) (v : β) : Build (List β) := do
  if ← tokenIf ended then return [v]
  Build.require (← tokenIf .flowEntry)
  if ← tokenIf ended then return [v]
  return v :: (← more)

section

variable {β : Type} {ended : Token} (more : Build (List β)) (v : β)

theorem afterOne_end :
    afterOne ended more v ⟨ended :: us, anchors, handles⟩ = some ([v], ⟨us, anchors, handles⟩) := by
  rw [afterOne, bind_of_eq (tokenIf_self _ _)]
  rfl

theorem afterOne_entry (hended : Token.flowEntry ≠ ended) (h : t ≠ ended) :
    afterOne ended more v ⟨.flowEntry :: t :: us, anchors, handles⟩ =
      (more >>= fun vs => pure (v :: vs)) ⟨t :: us, anchors, handles⟩ := by
  have hstep : ∀ us, afterOne ended more v ⟨.flowEntry :: us, anchors, handles⟩ =
      (tokenIf ended >>= fun last => if last then pure [v]
        else more >>= fun vs => pure (v :: vs)) ⟨us, anchors, handles⟩ := by
    intro us
    rw [afterOne, bind_of_eq (tokenIf_of_ne hended)]
    change (tokenIf .flowEntry >>= _) (⟨.flowEntry :: us, anchors, handles⟩ : Draft) = _
    rw [bind_of_eq (tokenIf_self _ _)]
    rfl
  rw [hstep, unlessEnded [v] _ h]

end

theorem buildFlowItems_succ (h : t ≠ .key) :
    buildFlowItems (fuel + 1) ⟨t :: us, anchors, handles⟩ =
      (buildNode .flow fuel >>= afterOne .flowSequenceEnd (buildFlowItems fuel))
        ⟨t :: us, anchors, handles⟩ := by
  rw [buildFlowItems, bind_of_eq (tokenIf_of_ne h)]
  rfl

theorem buildFlowEntries_succ (name : String) :
    buildFlowEntries (fuel + 3)
        ⟨.key :: .scalar .quoted name :: .value :: us, anchors, handles⟩ =
      (buildUnless .flow [.flowEntry, .flowMappingEnd] (fuel + 2) >>= fun v =>
        afterOne .flowMappingEnd (buildFlowEntries (fuel + 2)) (.scalar none none .quoted name, v))
          ⟨us, anchors, handles⟩ :=
  rfl

end Building

/-- The tokens of a value are built as its node, and those after them are left. -/
def BuildsBack (j : Json) : Prop :=
  ∀ ⦃place fuel us anchors handles⦄, 2 * (flowTokens j).length ≤ fuel →
    buildNode place fuel ⟨flowTokens j ++ us, anchors, handles⟩ =
      some (flowNode j, ⟨us, anchors, handles⟩)

theorem buildsBack_bool (b : Bool) : BuildsBack (.bool b) := by
  intro place fuel us anchors handles hfuel
  obtain ⟨fuel, rfl⟩ : ∃ f, fuel = f + 1 := ⟨fuel - 1, by simp [flowTokens] at hfuel; omega⟩
  rfl

theorem buildsBack_text (s : String) : BuildsBack (.text s) := by
  intro place fuel us anchors handles hfuel
  obtain ⟨fuel, rfl⟩ : ∃ f, fuel = f + 1 := ⟨fuel - 1, by simp [flowTokens] at hfuel; omega⟩
  rfl

section Collections

variable {n : Nat} {us : List Token} {anchors : List (String × Nat)}
  {handles : List (String × Tag)}

theorem buildFlowItems_value {j : Json} (hplain : Plain n j) (h : BuildsBack j) {fuel : Nat}
    (hfuel : 2 * (flowTokens j).length ≤ fuel) :
    buildFlowItems (fuel + 1) ⟨flowTokens j ++ us, anchors, handles⟩ =
      afterOne .flowSequenceEnd (buildFlowItems fuel) (flowNode j) ⟨us, anchors, handles⟩ := by
  obtain ⟨t, ts, htokens, ht⟩ := flowTokens_begins hplain
  have hstep : buildFlowItems (fuel + 1) ⟨flowTokens j ++ us, anchors, handles⟩ =
      (buildNode .flow fuel >>= afterOne .flowSequenceEnd (buildFlowItems fuel))
        ⟨flowTokens j ++ us, anchors, handles⟩ := by
    rw [htokens, List.cons_append]
    exact buildFlowItems_succ (ne_of_beginsFlow ht rfl)
  rw [hstep, bind_of_eq (h hfuel)]

theorem buildFlowItems_plain {j : Json} {items : List Json} (hplain : ∀ i ∈ j :: items, Plain n i)
    (h : ∀ i ∈ j :: items, BuildsBack i) {fuel : Nat}
    (hfuel : 2 * (flowTokens j ++ moreItemTokens items).length ≤ fuel) :
    buildFlowItems fuel ⟨flowTokens j ++ moreItemTokens items ++ us, anchors, handles⟩ =
      some (flowItems (j :: items), ⟨us, anchors, handles⟩) := by
  induction items generalizing j fuel with
  | nil =>
    simp only [moreItemTokens, List.length_append, List.length_cons, List.length_nil] at hfuel ⊢
    obtain ⟨fuel, rfl⟩ : ∃ f, fuel = f + 1 := ⟨fuel - 1, by omega⟩
    rw [List.append_assoc, buildFlowItems_value (hplain j List.mem_cons_self)
      (h j List.mem_cons_self) (by omega), List.singleton_append, afterOne_end]
    rfl
  | cons i items ih =>
    obtain ⟨hplain', hitems⟩ := List.forall_mem_cons.1 hplain
    obtain ⟨hj, h'⟩ := List.forall_mem_cons.1 h
    obtain ⟨t, ts, htokens, ht⟩ := flowTokens_begins (hitems i List.mem_cons_self)
    simp only [moreItemTokens, List.length_append, List.length_cons] at hfuel ⊢
    obtain ⟨fuel, rfl⟩ : ∃ f, fuel = f + 1 := ⟨fuel - 1, by omega⟩
    have hentry : afterOne .flowSequenceEnd (buildFlowItems fuel) (flowNode j)
        ⟨.flowEntry :: (flowTokens i ++ moreItemTokens items ++ us), anchors, handles⟩ =
        (buildFlowItems fuel >>= fun items => pure (flowNode j :: items))
          ⟨flowTokens i ++ moreItemTokens items ++ us, anchors, handles⟩ := by
      rw [htokens, List.cons_append, List.cons_append]
      exact afterOne_entry _ _ (by decide) (ne_of_beginsFlow ht rfl)
    rw [List.append_assoc, buildFlowItems_value hplain' hj (by omega), List.cons_append, hentry,
      bind_of_eq (ih hitems h' (by rw [List.length_append]; omega))]
    rfl

theorem buildsBack_list {j : Json} {items : List Json} (hplain : ∀ i ∈ j :: items, Plain n i)
    (h : ∀ i ∈ j :: items, BuildsBack i) : BuildsBack (.list (j :: items)) := by
  intro place fuel us anchors handles hfuel
  obtain ⟨t, ts, htokens, ht⟩ := flowTokens_begins (hplain j List.mem_cons_self)
  simp only [flowTokens, List.length_cons] at hfuel ⊢
  obtain ⟨fuel, rfl⟩ : ∃ f, fuel = f + 1 := ⟨fuel - 1, by omega⟩
  have hstep : buildNode place (fuel + 1)
      ⟨.flowSequenceStart :: (flowTokens j ++ moreItemTokens items ++ us), anchors, handles⟩ =
      (buildFlowItems fuel >>= fun items => pure (.sequence none items))
        ⟨flowTokens j ++ moreItemTokens items ++ us, anchors, handles⟩ := by
    rw [htokens, List.cons_append, List.cons_append]
    exact buildNode_sequence (ne_of_beginsFlow ht rfl)
  rw [List.cons_append, hstep, bind_of_eq (buildFlowItems_plain hplain h (by omega))]
  rfl

theorem buildFlowEntries_member (name : String) {j : Json} (hplain : Plain n j) (h : BuildsBack j)
    {fuel : Nat} (hfuel : 2 * (flowTokens j).length ≤ fuel) :
    buildFlowEntries (fuel + 3)
      ⟨.key :: .scalar .quoted name :: .value :: (flowTokens j ++ us), anchors, handles⟩ =
        afterOne .flowMappingEnd (buildFlowEntries (fuel + 2))
          (.scalar none none .quoted name, flowNode j) ⟨us, anchors, handles⟩ := by
  obtain ⟨t, ts, htokens, ht⟩ := flowTokens_begins hplain
  have hvalue : buildUnless .flow [.flowEntry, .flowMappingEnd] (fuel + 2)
      ⟨flowTokens j ++ us, anchors, handles⟩ = some (flowNode j, ⟨us, anchors, handles⟩) := by
    have hends : [Token.flowEntry, .flowMappingEnd].contains t = false := by
      cases t <;> first | rfl | cases ht
    rw [← h (Nat.le_succ_of_le hfuel), htokens, List.cons_append]
    exact buildUnless_of_contains hends
  rw [buildFlowEntries_succ, bind_of_eq hvalue]

theorem buildFlowEntries_plain {name : String} {j : Json} {ms : List (String × Json)}
    (hplain : ∀ e ∈ (name, j) :: ms, Plain n e.2) (h : ∀ e ∈ (name, j) :: ms, BuildsBack e.2)
    {fuel : Nat} (hfuel : 2 * (3 + (flowTokens j ++ moreMemberTokens ms).length) ≤ fuel) :
    buildFlowEntries fuel ⟨.key :: .scalar .quoted name :: .value ::
        (flowTokens j ++ moreMemberTokens ms ++ us), anchors, handles⟩ =
      some (flowEntries ((name, j) :: ms), ⟨us, anchors, handles⟩) := by
  induction ms generalizing name j fuel with
  | nil =>
    simp only [moreMemberTokens, List.length_append, List.length_cons, List.length_nil] at hfuel ⊢
    obtain ⟨fuel, rfl⟩ : ∃ f, fuel = f + 3 := ⟨fuel - 3, by omega⟩
    have hplain' : Plain n j := hplain _ List.mem_cons_self
    have hj : BuildsBack j := h _ List.mem_cons_self
    rw [List.append_assoc, buildFlowEntries_member name hplain' hj (by omega),
      List.singleton_append, afterOne_end]
    rfl
  | cons e ms ih =>
    obtain ⟨name', i⟩ := e
    obtain ⟨hplain', hmore⟩ := List.forall_mem_cons.1 hplain
    obtain ⟨hj, h'⟩ := List.forall_mem_cons.1 h
    dsimp only at hplain' hj
    simp only [moreMemberTokens, List.length_append, List.length_cons] at hfuel ⊢
    obtain ⟨fuel, rfl⟩ : ∃ f, fuel = f + 3 := ⟨fuel - 3, by omega⟩
    rw [List.append_assoc, buildFlowEntries_member name hplain' hj (by omega)]
    simp only [List.cons_append]
    rw [afterOne_entry _ _ (by decide) (by decide),
      bind_of_eq (ih hmore h' (by rw [List.length_append]; omega))]
    rfl

theorem buildsBack_record {m : String × Json} {ms : List (String × Json)}
    (hplain : ∀ e ∈ m :: ms, Plain n e.2) (h : ∀ e ∈ m :: ms, BuildsBack e.2) :
    BuildsBack (.record (m :: ms)) := by
  obtain ⟨name, j⟩ := m
  intro place fuel us anchors handles hfuel
  simp only [flowTokens, List.length_cons] at hfuel ⊢
  obtain ⟨fuel, rfl⟩ : ∃ f, fuel = f + 1 := ⟨fuel - 1, by omega⟩
  simp only [List.cons_append]
  rw [buildNode_mapping (by decide), bind_of_eq (buildFlowEntries_plain hplain h (by omega))]
  rfl

end Collections

theorem buildsBack_of_plain {n : Nat} {j : Json} (h : Plain n j) : BuildsBack j := by
  induction h with
  | bool b => exact buildsBack_bool b
  | @text _ s _ => exact buildsBack_text s
  | list h ih => exact buildsBack_list h ih
  | record _ hvalues ih => exact buildsBack_record hvalues ih

/-- A document that is one node without directives. -/
theorem buildDocument_eq {t : Token} {ts : List Token} {v : Node}
    (ht : t = .flowMappingStart ∨ t = .blockMappingStart)
    (h : buildNode .block (2 * (t :: ts).length + 2) ⟨t :: ts, [], defaultHandles⟩ =
      some (v, ⟨[], [], defaultHandles⟩)) :
    buildDocument ⟨t :: ts, [], []⟩ = some (v, ⟨[], [], defaultHandles⟩) := by
  have hstep : buildDocument ⟨t :: ts, [], []⟩ =
      (buildNode .block (2 * (t :: ts).length + 2) >>= fun root => (do
        modify fun s : Draft => { s with tokens := s.tokens.dropWhile (· = .documentEnd) }
        Build.require (← peek).isNone
        return root : Build Node)) ⟨t :: ts, [], defaultHandles⟩ := by
    rcases ht with rfl | rfl <;> rfl
  rw [hstep, bind_of_eq h]
  rfl

theorem read?_eq {s : String} {t : Token} {ts : List Token} {v : Node}
    (htokens : tokens? s = some (t :: ts)) (ht : t = .flowMappingStart ∨ t = .blockMappingStart)
    (h : buildNode .block (2 * (t :: ts).length + 2) ⟨t :: ts, [], defaultHandles⟩ =
      some (v, ⟨[], [], defaultHandles⟩)) :
    read? s = some v := by
  rw [read?, htokens]
  change (buildDocument ⟨t :: ts, [], []⟩).bind (fun r => some r.1) = _
  rw [buildDocument_eq ht h]
  rfl

/-- The JSON text of a plain record is a YAML text of the same. -/
theorem read?_pretty {n : Nat} {m : String × Json} {ms : List (String × Json)}
    (h : Plain n (.record (m :: ms))) :
    read? (Json.record (m :: ms)).pretty = some (flowNode (.record (m :: ms))) := by
  have hbuild := @buildsBack_of_plain _ _ h .block
    (2 * (flowTokens (.record (m :: ms))).length + 2) [] [] defaultHandles (by omega)
  rw [List.append_nil] at hbuild
  exact read?_eq (tokens?_pretty h) (.inl rfl) hbuild

end Yaml

end EquivalentCircuit
