import EquivalentCircuit.Proofs.JsonText
import EquivalentCircuit.Proofs.YamlFlow
import EquivalentCircuit.Yaml.Node

/-! JSON texts of plain values read as YAML: lists and records are flow collections and texts are
quoted. The same value is read by both. -/

namespace EquivalentCircuit

namespace Yaml

open Json Yaml.Lex

mutual

def flowTokens : Json → List Token
  | .bool b => [.scalar .plain (if b then "true" else "false")]
  | .text s => [.scalar .quoted s]
  | .list (j :: items) => .flowSequenceStart :: (flowTokens j ++ moreItemTokens items)
  | .record ((n, j) :: ms) =>
    .flowMappingStart :: .key :: .scalar .quoted n :: .value ::
      (flowTokens j ++ moreMemberTokens ms)
  | _ => []

/-- The tokens of the items after the first with the end of their list. -/
def moreItemTokens : List Json → List Token
  | [] => [.flowSequenceEnd]
  | j :: items => .flowEntry :: (flowTokens j ++ moreItemTokens items)

def moreMemberTokens : List (String × Json) → List Token
  | [] => [.flowMappingEnd]
  | (n, j) :: ms =>
    .flowEntry :: .key :: .scalar .quoted n :: .value :: (flowTokens j ++ moreMemberTokens ms)

end

/-- Inside a list or a record the text of a value is fetched as its tokens. -/
def FetchedInside (j : Json) : Prop :=
  ∀ ⦃fresh indent depth ts gap c rest⦄, IsGap gap → c ∈ [',', ']', '\x7d'] →
    Leads (Flowing fresh (depth + 1) ts (prettyOnto indent j (gap ++ c :: rest)))
      (Flowing false (depth + 1) (ts ++ flowTokens j) (c :: rest))

def Fetched (j : Json) : Prop :=
  ∀ ⦃fresh indent depth ts gap rest⦄, IsGap gap →
    Leads (Flowing fresh depth ts (prettyOnto indent j (gap ++ rest)))
      (Flowing false depth (ts ++ flowTokens j) rest)

theorem isGap_lineAt (depth : Nat) : IsGap (lineAt depth) := by
  intro c hc
  rcases List.mem_cons.1 hc with rfl | hc
  · exact .inr rfl
  · exact .inl (List.eq_of_mem_replicate hc)

theorem fetchedInside_bool (b : Bool) : FetchedInside (.bool b) := by
  intro fresh indent depth ts gap c rest hgap hc
  cases b with
  | true => exact @leads_plain _ _ _ gap rest c "true" (by decide) hgap hc
  | false => exact @leads_plain _ _ _ gap rest c "false" (by decide) hgap hc

theorem fetched_text {s : String} (h : IsWord s) : Fetched (.text s) := by
  intro fresh indent depth ts gap rest hgap
  have htext : prettyOnto indent (.text s) (gap ++ rest) =
      '"' :: (s.toList ++ '"' :: (gap ++ rest)) := by
    change quoted s ++ (gap ++ rest) = _
    rw [quoted_word h, List.cons_append, List.append_assoc]
    rfl
  rw [htext]
  exact leads_quoted h hgap

section Collections

variable {gap rest : List Char} {depth : Nat}

theorem leads_moreItems {items : List Json} (h : ∀ i ∈ items, FetchedInside i) (indent outer : Nat)
    (hgap : IsGap gap) :
    ∃ gap' c rest', IsGap gap' ∧ c ∈ [',', ']', '\x7d'] ∧
      prettyItems indent items (lineAt outer ++ ']' :: (gap ++ rest)) = gap' ++ c :: rest' ∧
        ∀ fresh ts, Leads (Flowing fresh (depth + 1) ts (c :: rest'))
          (Flowing false depth (ts ++ moreItemTokens items) rest) := by
  induction items with
  | nil =>
    exact ⟨lineAt outer, ']', gap ++ rest, isGap_lineAt outer, by decide, rfl, fun fresh ts =>
      leads_flowEnd (by decide) (by decide) (fun _ _ _ => rfl) hgap⟩
  | cons j items ih =>
    obtain ⟨hj, hitems⟩ := List.forall_mem_cons.1 h
    obtain ⟨gap', c, rest', hgap', hc, htext, hmore⟩ := ih hitems
    refine ⟨[], ',', lineAt indent ++ prettyOnto indent j (gap' ++ c :: rest'),
      List.forall_mem_nil _, by decide, by rw [prettyItems, htext]; rfl, fun fresh ts => ?_⟩
    have htokens : ts ++ moreItemTokens (j :: items) =
        ts ++ [.flowEntry] ++ flowTokens j ++ moreItemTokens items := by
      simp [moreItemTokens]
    rw [htokens]
    exact ((leads_flowEntry (isGap_lineAt indent)).trans (hj hgap' hc)).trans (hmore false _)

theorem fetched_list {j : Json} {items : List Json} (h : ∀ i ∈ j :: items, FetchedInside i) :
    Fetched (.list (j :: items)) := by
  obtain ⟨hj, hitems⟩ := List.forall_mem_cons.1 h
  intro fresh indent depth ts gap rest hgap
  obtain ⟨gap', c, rest', hgap', hc, htext, hmore⟩ :=
    @leads_moreItems gap rest depth items hitems (indent + 1) indent hgap
  have htokens : ts ++ flowTokens (.list (j :: items)) =
      ts ++ [.flowSequenceStart] ++ flowTokens j ++ moreItemTokens items := by
    simp [flowTokens]
  rw [htokens, prettyOnto, htext]
  exact ((leads_flowStart (by decide) (by decide) (fun _ _ _ => rfl)
    (isGap_lineAt (indent + 1))).trans (hj hgap' hc)).trans (hmore false _)

theorem quoted_colon {name : String} (h : IsWord name) (t : List Char) :
    quoted name ++ ':' :: ' ' :: t = '"' :: (name.toList ++ '"' :: ':' :: ([' '] ++ t)) := by
  rw [quoted_word h, List.cons_append, List.append_assoc]
  rfl

theorem leads_moreMembers {ms : List (String × Json)} (hnames : ∀ e ∈ ms, IsWord e.1)
    (h : ∀ e ∈ ms, FetchedInside e.2) (indent outer : Nat) (hgap : IsGap gap) :
    ∃ gap' c rest', IsGap gap' ∧ c ∈ [',', ']', '\x7d'] ∧
      prettyMembers indent ms (lineAt outer ++ '\x7d' :: (gap ++ rest)) = gap' ++ c :: rest' ∧
        ∀ fresh ts, Leads (Flowing fresh (depth + 1) ts (c :: rest'))
          (Flowing false depth (ts ++ moreMemberTokens ms) rest) := by
  induction ms with
  | nil =>
    exact ⟨lineAt outer, '\x7d', gap ++ rest, isGap_lineAt outer, by decide, rfl, fun fresh ts =>
      leads_flowEnd (by decide) (by decide) (fun _ _ _ => rfl) hgap⟩
  | cons m ms ih =>
    obtain ⟨name, j⟩ := m
    obtain ⟨hname, hnames'⟩ := List.forall_mem_cons.1 hnames
    obtain ⟨hj, hms⟩ := List.forall_mem_cons.1 h
    obtain ⟨gap', c, rest', hgap', hc, htext, hmore⟩ := ih hnames' hms
    have hcomma : prettyMembers indent ((name, j) :: ms) (lineAt outer ++ '\x7d' :: (gap ++ rest)) =
        ',' :: (lineAt indent ++ (quoted name ++ ':' :: ' ' ::
          prettyOnto indent j (gap' ++ c :: rest'))) := by
      rw [prettyMembers, htext, List.append_assoc]
    refine ⟨[], ',', _, List.forall_mem_nil _, by decide, hcomma, fun fresh ts => ?_⟩
    have htokens : ts ++ moreMemberTokens ((name, j) :: ms) =
        ts ++ [.flowEntry] ++ [.key, .scalar .quoted name, .value] ++ flowTokens j ++
          moreMemberTokens ms := by
      simp [moreMemberTokens]
    rw [htokens, quoted_colon hname]
    exact (((leads_flowEntry (isGap_lineAt indent)).trans
      (@leads_key _ _ [' '] _ _ hname (by decide))).trans (hj hgap' hc)).trans (hmore false _)

theorem fetched_record {m : String × Json} {ms : List (String × Json)}
    (hnames : ∀ e ∈ m :: ms, IsWord e.1) (h : ∀ e ∈ m :: ms, FetchedInside e.2) :
    Fetched (.record (m :: ms)) := by
  obtain ⟨name, j⟩ := m
  obtain ⟨hname, hnames'⟩ := List.forall_mem_cons.1 hnames
  obtain ⟨hj, hms⟩ := List.forall_mem_cons.1 h
  intro fresh indent depth ts gap rest hgap
  obtain ⟨gap', c, rest', hgap', hc, htext, hmore⟩ :=
    @leads_moreMembers gap rest depth ms hnames' hms (indent + 1) indent hgap
  have htokens : ts ++ flowTokens (.record ((name, j) :: ms)) =
      ts ++ [.flowMappingStart] ++ [.key, .scalar .quoted name, .value] ++ flowTokens j ++
        moreMemberTokens ms := by
    simp [flowTokens]
  rw [htokens, prettyOnto, htext, List.append_assoc (lineAt (indent + 1)), quoted_colon hname]
  exact (((leads_flowStart (by decide) (by decide) (fun _ _ _ => rfl)
    (isGap_lineAt (indent + 1))).trans (@leads_key _ _ [' '] _ _ hname (by decide))).trans
      (hj hgap' hc)).trans (hmore false _)

end Collections

theorem Fetched.inside {j : Json} (h : Fetched j) : FetchedInside j :=
  fun _ _ _ _ _ _ _ hgap _ => h hgap

theorem fetchedInside_of_plain {n : Nat} {j : Json} (h : Plain n j) : FetchedInside j := by
  induction h with
  | bool b => exact fetchedInside_bool b
  | text h => exact (fetched_text h).inside
  | list _ ih => exact (fetched_list ih).inside
  | record hnames _ ih => exact (fetched_record hnames ih).inside

theorem isAllowed_of_isWritten {cs : List Char} (h : IsWritten cs) : ∀ c ∈ cs, isAllowed c = true :=
  fun c hc => (by decide : ∀ c ∈ writtenChars, isAllowed c = true) c (h c hc)

/-- The text of a record is fetched to its end. -/
theorem tokens?_pretty {n : Nat} {m : String × Json} {ms : List (String × Json)}
    (h : Plain n (.record (m :: ms))) :
    tokens? (Json.record (m :: ms)).pretty = some (flowTokens (.record (m :: ms))) := by
  have hrecord : Fetched (.record (m :: ms)) := by
    cases h with
    | record hnames hvalues =>
      exact fetched_record hnames fun e he => fetchedInside_of_plain (hvalues e he)
  have htext : (Json.record (m :: ms)).pretty.toList =
      prettyOnto 0 (.record (m :: ms)) ([] ++ []) :=
    String.toList_ofList
  obtain ⟨s, hfetch, hs⟩ := hrecord (List.forall_mem_nil _) _ (flowing_start htext)
  obtain ⟨gap, hgap, hrest⟩ := hs.ahead
  obtain ⟨here, hhere, -, hend⟩ := fetches_gap hgap (by rintro _ ⟨⟩) hrest
  have hflow : s.inFlow = false := by
    obtain ⟨k, ks, hkeys, hlength, -⟩ := hs.exists_keys
    rw [Lexer.inFlow, hkeys, List.tail_cons, List.eq_nil_of_length_eq_zero hlength]
    rfl
  have htokens := tokens?_eq (isAllowed_of_isWritten h.isWritten) (hfetch.trans hend) hhere hflow
    hs.head_optional
  rw [htokens]
  dsimp only
  rw [hs.tokens, hs.blocks]
  simp

end Yaml

end EquivalentCircuit
