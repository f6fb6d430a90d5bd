import EquivalentCircuit.Proofs.YamlSteps

/-! The tokens of flow collections, in which indentation does not count. What is known between two
tokens is an invariant of the lexer, and each token leads from one such state to another. -/

namespace EquivalentCircuit

namespace Yaml

namespace Lex

/-- So deep inside flow collections, with the tokens so far and the text that is left but for a gap.
Where it is fresh, a key may begin. -/
structure Flowing (fresh : Bool) (depth : Nat) (tokens : List Token) (rest : List Char)
    (s : Lexer) : Prop where
  depth : s.keys.length = depth + 1
  optional : ∀ k ∈ s.keys, k.any (·.required) = false
  blocks : s.blocks = []
  tokens : s.tokens = tokens.toArray
  allowed : fresh = true → s.keyAllowed = true
  ahead : ∃ gap, IsGap gap ∧ s.cursor.text = gap ++ rest

variable {fresh : Bool} {depth : Nat} {ts : List Token} {gap rest : List Char} {c : Char}
  {s : Lexer}

theorem flowing_start {text : List Char} (h : text = rest) :
    Flowing true 0 [] rest (Lexer.start text) :=
  ⟨rfl, List.forall_mem_singleton.2 rfl, rfl, rfl, fun _ => rfl, [], List.forall_mem_nil _, h⟩

namespace Flowing

theorem exists_keys (h : Flowing fresh depth ts rest s) :
    ∃ k ks, s.keys = k :: ks ∧ ks.length = depth ∧ k.any (·.required) = false ∧
      ∀ k ∈ ks, k.any (·.required) = false := by
  obtain ⟨k, ks, hkeys⟩ := List.exists_cons_of_length_eq_add_one h.depth
  have hoptional := h.optional
  have hdepth := h.depth
  rw [hkeys] at hoptional hdepth
  exact ⟨k, ks, hkeys, Nat.succ.inj hdepth, List.forall_mem_cons.1 hoptional⟩

theorem inFlow (h : Flowing fresh (depth + 1) ts rest s) : s.inFlow = true := by
  obtain ⟨k, ks, hkeys, hdepth, -⟩ := h.exists_keys
  obtain ⟨k', ks', rfl⟩ := List.exists_cons_of_length_eq_add_one hdepth
  rw [Lexer.inFlow, hkeys]
  rfl

/-- At the next token. -/
theorem arrive (h : Flowing fresh depth ts (c :: rest) s) (hc : c ∈ visibleChars) :
    ∃ s', Fetches s s' ∧ Flowing fresh depth ts (c :: rest) s' ∧ s'.cursor.text = c :: rest := by
  obtain ⟨gap, hgap, htext⟩ := h.ahead
  have hstops : Stops (c :: rest) := by
    rintro _ ⟨⟩
    exact hc
  obtain ⟨here, hhere, -, hfetch⟩ := fetches_gap hgap hstops htext
  exact ⟨_, hfetch, ⟨h.depth, h.optional, h.blocks, h.tokens,
    fun hfresh => by rw [h.allowed hfresh, Bool.true_or], [], List.forall_mem_nil _, hhere⟩, hhere⟩

theorem head_optional (h : Flowing fresh depth ts rest s) :
    s.keys.head?.join.any (·.required) = false := by
  obtain ⟨k, ks, hkeys, -, hk, -⟩ := h.exists_keys
  rw [hkeys]
  exact hk

/-- What may be a key is remembered where a key may begin. -/
theorem saveKey (h : Flowing fresh depth ts rest s) :
    ∃ k, Lex.saveKey s = some ((), { s with keys := k :: s.keys.tail }) ∧
      k.any (·.required) = false := by
  by_cases hallowed : s.keyAllowed = true
  · refine ⟨_, saveKey_of_allowed hallowed h.head_optional, ?_⟩
    rw [Option.any_some, keyHere, h.blocks]
    exact Bool.and_false _
  · obtain ⟨k, ks, hkeys, -, hk, -⟩ := h.exists_keys
    refine ⟨k, ?_, hk⟩
    rw [saveKey_of_not_allowed (Bool.eq_false_iff.2 hallowed), hkeys, List.tail_cons,
      ← hkeys]

/-- A token at its first character. -/
theorem fetches {s' : Lexer} (h : Flowing fresh depth ts (c :: rest) s)
    (htext : s.cursor.text = c :: rest) (hc : c ∈ visibleChars) (hmark : c ≠ '-')
    (hless : s'.cursor.text.length ≤ rest.length)
    (hfetch : ∀ fuel, rest.length < fuel → fetchFrom fuel s.inFlow c rest s = some ((), s')) :
    Fetches s s' := by
  have hdots : c ≠ '.' := (by decide : ∀ c ∈ visibleChars, c ≠ '.') c hc
  have hlength : s.cursor.text.length = rest.length + 1 := by rw [htext, List.length_cons]
  refine fetches_token ?_ ?_ ?_ (by omega) fun fuel hfuel => ?_
  · rw [htext]
    rintro _ ⟨⟩
    exact hc
  · rw [htext]
    exact List.cons_ne_nil _ _
  · rw [h.blocks]
    rintro _ ⟨⟩
  · have hplace : s.cursor.atDocumentMark = false := by
      rw [atDocumentMark_of_text (isDocumentMark_of_head? _)]
      rw [htext]
      rintro _ ⟨⟩
      exact ⟨hmark, hdots⟩
    rw [fetch_eq fuel htext hc hplace]
    exact hfetch fuel (by omega)

theorem optional_tail (h : Flowing fresh depth ts rest s) :
    s.keys.tail.length = depth ∧ ∀ k ∈ s.keys.tail, k.any (·.required) = false := by
  obtain ⟨k, ks, hkeys, hdepth, -, hks⟩ := h.exists_keys
  rw [hkeys]
  exact ⟨hdepth, hks⟩

end Flowing

/-! Marks of flow collections. -/

theorem leads_flowStart {t : Token} (hc : c ∈ visibleChars) (hmark : c ≠ '-')
    (hfetch : ∀ fuel flow rest, fetchFrom fuel flow c rest = fetchFlowStart t) (hgap : IsGap gap) :
    Leads (Flowing fresh depth ts (c :: (gap ++ rest)))
      (Flowing true (depth + 1) (ts ++ [t]) rest) := by
  intro s hs
  obtain ⟨s₁, hfirst, h₁, htext⟩ := hs.arrive hc
  obtain ⟨k, hsave, hk⟩ := h₁.saveKey
  obtain ⟨hdepth, hks⟩ := h₁.optional_tail
  have hnext : (s₁.cursor.advance 1).text = gap ++ rest := Cursor.advance_append [c] htext
  refine ⟨{ s₁ with
    cursor := s₁.cursor.advance 1, keys := none :: k :: s₁.keys.tail, keyAllowed := true,
    tokens := s₁.tokens.push t }, hfirst.trans (h₁.fetches htext hc hmark
      (Nat.le_of_eq (congrArg List.length hnext)) fun fuel _ => ?_), ?_, ?_, h₁.blocks, ?_,
    fun _ => rfl, gap, hgap, hnext⟩
  · rw [hfetch, fetchFlowStart, bind_of_eq hsave]
    rfl
  · rw [List.length_cons, List.length_cons, hdepth]
  · exact List.forall_mem_cons.2 ⟨rfl, List.forall_mem_cons.2 ⟨hk, hks⟩⟩
  · rw [h₁.tokens, List.push_toArray]

theorem fetchFlowEnd_of_inFlow (t : Token) (hflow : s.inFlow = true)
    (hkey : s.keys.head?.join.any (·.required) = false) :
    fetchFlowEnd t s = some ((), { s with
      cursor := s.cursor.advance 1, keys := s.keys.tail, keyAllowed := false,
      tokens := s.tokens.push t }) := by
  have hrequire : require s.inFlow { s with keys := none :: s.keys.tail } =
      some ((), { s with keys := none :: s.keys.tail }) := if_pos hflow
  rw [fetchFlowEnd, bind_of_eq (dropKey_of_optional hkey)]
  change (require s.inFlow >>= fun _ => (do
    modify fun s => { s with keys := s.keys.tail, keyAllowed := false }
    read Read.skip
    emit t : Lex Unit)) _ = _
  rw [bind_of_eq hrequire]
  rfl

theorem leads_flowEnd {t : Token} (hc : c ∈ visibleChars) (hmark : c ≠ '-')
    (hfetch : ∀ fuel flow rest, fetchFrom fuel flow c rest = fetchFlowEnd t) (hgap : IsGap gap) :
    Leads (Flowing fresh (depth + 1) ts (c :: (gap ++ rest)))
      (Flowing false depth (ts ++ [t]) rest) := by
  intro s hs
  obtain ⟨s₁, hfirst, h₁, htext⟩ := hs.arrive hc
  obtain ⟨hdepth, hks⟩ := h₁.optional_tail
  have hnext : (s₁.cursor.advance 1).text = gap ++ rest := Cursor.advance_append [c] htext
  refine ⟨{ s₁ with
    cursor := s₁.cursor.advance 1, keys := s₁.keys.tail, keyAllowed := false,
    tokens := s₁.tokens.push t }, hfirst.trans (h₁.fetches htext hc hmark
      (Nat.le_of_eq (congrArg List.length hnext)) fun fuel _ => ?_), hdepth, hks, h₁.blocks, ?_,
    nofun, gap, hgap, hnext⟩
  · rw [hfetch]
    exact fetchFlowEnd_of_inFlow t h₁.inFlow h₁.head_optional
  · rw [h₁.tokens, List.push_toArray]

theorem leads_flowEntry (hgap : IsGap gap) :
    Leads (Flowing fresh depth ts (',' :: (gap ++ rest)))
      (Flowing true depth (ts ++ [.flowEntry]) rest) := by
  intro s hs
  obtain ⟨s₁, hfirst, h₁, htext⟩ := hs.arrive (by decide)
  obtain ⟨hdepth, hks⟩ := h₁.optional_tail
  have hnext : (s₁.cursor.advance 1).text = gap ++ rest := Cursor.advance_append [','] htext
  refine ⟨{ s₁ with
    cursor := s₁.cursor.advance 1, keys := none :: s₁.keys.tail, keyAllowed := true,
    tokens := s₁.tokens.push .flowEntry }, hfirst.trans (h₁.fetches htext (by decide) (by decide)
      (Nat.le_of_eq (congrArg List.length hnext)) fun fuel _ => ?_), ?_, ?_, h₁.blocks, ?_,
    fun _ => rfl, gap, hgap, hnext⟩
  · change fetchFlowEntry s₁ = _
    rw [fetchFlowEntry, bind_of_eq (dropKey_of_optional h₁.head_optional)]
    rfl
  · rw [List.length_cons, hdepth]
  · exact List.forall_mem_cons.2 ⟨rfl, hks⟩
  · rw [h₁.tokens, List.push_toArray]

/-! Words. -/

/-- A word between quotes, as the token that a state begins with. -/
theorem scan_quoted {w : String} (hw : IsWord w) {s : Cursor}
    (h : s.text = '"' :: (w.toList ++ '"' :: rest)) {fuel : Nat}
    (hfuel : (w.toList ++ '"' :: rest).length < fuel) :
    (do Read.skip; return Token.scalar .quoted (String.ofList (← scanQuoted false [] fuel)) :
      Read Token) s =
        some (.scalar .quoted w, ((s.advance 1).advance w.toList.length).advance 1) := by
  have htext : (s.advance 1).text = w.toList ++ '"' :: rest := Cursor.advance_append ['"'] h
  have hscan := @scanQuoted_word w hw rest (s.advance 1) htext (Nat.succ_ne_zero _) fuel
    (by rw [List.length_append] at hfuel; omega)
  change (scanQuoted false [] fuel >>= fun cs =>
    pure (Token.scalar .quoted (String.ofList cs)) : Read Token) (s.advance 1) = _
  rw [bind_of_eq hscan, String.ofList_toList]
  rfl

theorem text_quoted {w : String} {s : Cursor} (h : s.text = '"' :: (w.toList ++ '"' :: rest)) :
    (((s.advance 1).advance w.toList.length).advance 1).text = rest :=
  Cursor.advance_append ['"']
    (Cursor.advance_append w.toList (Cursor.advance_append ['"'] h))

def afterQuoted (w : String) (k : Option PossibleKey) (s : Lexer) : Lexer :=
  { s with
    cursor := ((s.cursor.advance 1).advance w.toList.length).advance 1
    keys := k :: s.keys.tail
    keyAllowed := false
    tokens := s.tokens.push (.scalar .quoted w) }

theorem Flowing.quoted {w : String} (hw : IsWord w) {k : Option PossibleKey}
    (h : Flowing fresh depth ts ('"' :: (w.toList ++ '"' :: (gap ++ rest))) s) (hgap : IsGap gap)
    (htext : s.cursor.text = '"' :: (w.toList ++ '"' :: (gap ++ rest)))
    (hsave : Lex.saveKey s = some ((), { s with keys := k :: s.keys.tail }))
    (hk : k.any (·.required) = false) :
    Fetches s (afterQuoted w k s) ∧
      Flowing false depth (ts ++ [.scalar .quoted w]) rest (afterQuoted w k s) := by
  obtain ⟨hdepth, hks⟩ := h.optional_tail
  have hnext : (afterQuoted w k s).cursor.text = gap ++ rest := text_quoted htext
  refine ⟨h.fetches htext (by decide) (by decide) ?_ fun fuel hfuel => ?_, ?_, ?_, h.blocks, ?_,
    nofun, gap, hgap, hnext⟩
  · rw [hnext]
    simp only [List.length_append, List.length_cons]
    omega
  · change fetchQuoted false fuel s = _
    exact fetchNode_eq hsave (scan_quoted hw htext hfuel)
  · rw [afterQuoted, List.length_cons, hdepth]
  · exact List.forall_mem_cons.2 ⟨hk, hks⟩
  · rw [afterQuoted, h.tokens, List.push_toArray]

theorem leads_quoted {w : String} (hw : IsWord w) (hgap : IsGap gap) :
    Leads (Flowing fresh depth ts ('"' :: (w.toList ++ '"' :: (gap ++ rest))))
      (Flowing false depth (ts ++ [.scalar .quoted w]) rest) := by
  intro s hs
  obtain ⟨s₁, hfirst, h₁, htext⟩ := hs.arrive (by decide)
  obtain ⟨k, hsave, hk⟩ := h₁.saveKey
  obtain ⟨hfetch, h₂⟩ := h₁.quoted hw hgap htext hsave hk
  exact ⟨_, hfirst.trans hfetch, h₂⟩

/-- A colon makes a key of the token before it. -/
theorem Flowing.colon {t : Token} {k : PossibleKey}
    (h : Flowing fresh (depth + 1) (ts ++ [t]) (':' :: (gap ++ rest)) s) (hgap : IsGap gap)
    (htext : s.cursor.text = ':' :: (gap ++ rest)) (hkey : s.currentKey? = some k)
    (hnumber : k.number = ts.length) :
    ∃ s', Fetches s s' ∧ Flowing false (depth + 1) (ts ++ [.key, t, .value]) rest s' := by
  have hnext : (s.cursor.advance 1).text = gap ++ rest := Cursor.advance_append [':'] htext
  obtain ⟨hdepth, hks⟩ := h.optional_tail
  have hopen := @openBlock_of_inFlow { s with tokens := s.tokens.insertIdxIfInBounds k.number .key }
    h.inFlow k.column k.number .blockMappingStart
  refine ⟨{ s with
    cursor := s.cursor.advance 1, keys := none :: s.keys.tail, keyAllowed := false,
    tokens := (s.tokens.insertIdxIfInBounds k.number .key).push .value },
    h.fetches htext (by decide) (by decide) (Nat.le_of_eq (congrArg List.length hnext))
      fun fuel _ => ?_, ?_, ?_, h.blocks, ?_, nofun, gap, hgap, hnext⟩
  · rw [h.inFlow]
    change fetchValue s = _
    exact fetchValue_eq hkey hopen
  · rw [List.length_cons, hdepth]
  · exact List.forall_mem_cons.2 ⟨rfl, hks⟩
  · rw [h.tokens, hnumber, insertIdxIfInBounds_length, List.push_toArray, List.append_assoc]
    rfl

/-- A name with its colon. -/
theorem leads_key {w : String} (hw : IsWord w) (hgap : IsGap gap) :
    Leads (Flowing true (depth + 1) ts ('"' :: (w.toList ++ '"' :: ':' :: (gap ++ rest))))
      (Flowing false (depth + 1) (ts ++ [.key, .scalar .quoted w, .value]) rest) := by
  intro s hs
  obtain ⟨s₁, hfirst, h₁, htext⟩ := hs.arrive (by decide)
  have hsave := saveKey_of_allowed (h₁.allowed rfl) h₁.head_optional
  have hrequired : (keyHere s₁).required = false := by
    rw [keyHere, h₁.inFlow]
    rfl
  obtain ⟨hfetch, h₂⟩ := @Flowing.quoted _ _ _ [] _ _ w hw (some (keyHere s₁)) h₁
    (List.forall_mem_nil _) htext hsave hrequired
  have hlength := hw.length_le
  have hindex : (afterQuoted w (some (keyHere s₁)) s₁).cursor.index ≤
      s₁.cursor.index + 1024 := by
    have hopening := s₁.cursor.index_advance_le 1
    have hword := (s₁.cursor.advance 1).index_advance_le w.toList.length
    have hclosing := ((s₁.cursor.advance 1).advance w.toList.length).index_advance_le 1
    dsimp only [afterQuoted]
    omega
  have hnumber : (keyHere s₁).number = ts.length := by
    rw [keyHere, h₁.tokens, List.size_toArray]
  obtain ⟨s₃, hlast, h₃⟩ :=
    h₂.colon hgap (text_quoted htext) (currentKey?_of_head? rfl rfl hindex) hnumber
  exact ⟨s₃, (hfirst.trans hfetch).trans hlast, h₃⟩

theorem scanPlain_flow {w : String} (hw : IsWord w) (hgap : IsGap gap)
    (hc : c ∈ [',', ']', '\x7d']) {s : Cursor} (h : s.text = w.toList ++ (gap ++ c :: rest))
    (indent : Nat) :
    ∃ broken here, here.text = c :: rest ∧ ∀ fuel, gap.length ≤ fuel →
      scanPlain true indent [] Gap.none (fuel + 1) s = some ((w.toList.reverse, broken), here) := by
  have hrun : scanRun true (c :: rest) = some [] := by
    simp only [List.mem_cons, List.not_mem_nil, or_false] at hc
    rcases hc with rfl | rfl | rfl <;> rfl
  have hvisible := (by decide : ∀ c ∈ [',', ']', '\x7d'],
    c ∈ visibleChars ∧ isBlank c = false ∧ isBreak c = false) c hc
  rcases eq_or_ne gap [] with rfl | hne
  · exact ⟨false, _, Cursor.advance_append _ h, fun fuel _ =>
      scanPlain_ended hw hrun hvisible.2 h indent fuel⟩
  · have hstops : Stops (c :: rest) := by
      rintro _ ⟨⟩
      exact hvisible.1
    obtain ⟨here, hhere, -, hscan⟩ :=
      @scanPlain_gap _ _ w hw true hgap hne hstops s h indent (.inl ⟨rfl, hrun⟩)
    exact ⟨_, here, hhere, hscan⟩

/-- A plain word before the end of what it belongs to. -/
theorem leads_plain {w : String} (hw : IsWord w) (hgap : IsGap gap) (hc : c ∈ [',', ']', '\x7d']) :
    Leads (Flowing fresh (depth + 1) ts (w.toList ++ (gap ++ c :: rest)))
      (Flowing false (depth + 1) (ts ++ [.scalar .plain w]) (c :: rest)) := by
  obtain ⟨d, ds, hw', hd⟩ := hw.exists_cons
  have hvisible := visible_of_word hd
  rw [hw', List.cons_append]
  intro s hs
  obtain ⟨s₁, hfirst, h₁, htext⟩ := hs.arrive hvisible
  obtain ⟨k, hsave, hk⟩ := h₁.saveKey
  obtain ⟨hdepth, hks⟩ := h₁.optional_tail
  have hflow : Lexer.inFlow { s₁ with keys := k :: s₁.keys.tail } = true := h₁.inFlow
  have hword : s₁.cursor.text = w.toList ++ (gap ++ c :: rest) := by
    rw [htext, hw', List.cons_append]
  obtain ⟨broken, here, hhere, hscan⟩ := scanPlain_flow hw hgap hc hword
    (Lexer.contentColumn { s₁ with keys := k :: s₁.keys.tail })
  refine ⟨{ s₁ with
    cursor := here, keys := k :: s₁.keys.tail, keyAllowed := broken,
    tokens := s₁.tokens.push (.scalar .plain w) },
    hfirst.trans (h₁.fetches htext hvisible
      ((by decide : ∀ c ∈ wordChars, c ≠ '-') d hd) ?_ fun fuel hfuel => ?_), ?_, ?_,
    h₁.blocks, ?_, nofun, [], List.forall_mem_nil _, hhere⟩
  · dsimp only
    rw [hhere]
    simp only [List.length_append, List.length_cons]
    omega
  · simp only [List.length_append, List.length_cons] at hfuel
    obtain ⟨fuel, rfl⟩ : ∃ f, fuel = f + 1 := ⟨fuel - 1, by omega⟩
    rw [fetchFrom_word _ _ hd]
    refine fetchPlain_eq hsave ?_
    rw [hflow]
    exact hscan fuel (by omega)
  · rw [List.length_cons, hdepth]
  · exact List.forall_mem_cons.2 ⟨hk, hks⟩
  · rw [h₁.tokens, List.push_toArray]

end Lex

end Yaml

end EquivalentCircuit
