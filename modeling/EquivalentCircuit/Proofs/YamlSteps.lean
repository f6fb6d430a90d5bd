import Mathlib.Data.List.TakeWhile
import Mathlib.Data.Option.Basic
import EquivalentCircuit.Proofs.YamlWords

/-! The tokens of a YAML text, one after the other. From a state that holds what is known of the
text and the tokens so far, fetching goes on as from a later one. -/

namespace EquivalentCircuit

namespace Yaml

namespace Lex

/-- Fetching the tokens from one state comes to fetching them from another. -/
def Fetches (s s' : Lexer) : Prop :=
  ∀ fuel, s.cursor.text.length < fuel → ∃ fuel', s'.cursor.text.length < fuel' ∧
    fetchAll fuel s = fetchAll fuel' s'

theorem Fetches.refl (s : Lexer) : Fetches s s := fun fuel hfuel => ⟨fuel, hfuel, rfl⟩

theorem Fetches.trans {s s' s'' : Lexer} (h : Fetches s s') (h' : Fetches s' s'') :
    Fetches s s'' := by
  intro fuel hfuel
  obtain ⟨fuel', hfuel', heq⟩ := h fuel hfuel
  obtain ⟨fuel'', hfuel'', heq'⟩ := h' fuel' hfuel'
  exact ⟨fuel'', hfuel'', heq.trans heq'⟩

/-- From every state of one kind fetching leads to a state of another. -/
def Leads (P Q : Lexer → Prop) : Prop := ∀ s, P s → ∃ s', Fetches s s' ∧ Q s'

theorem Leads.trans {P Q R : Lexer → Prop} (h : Leads P Q) (h' : Leads Q R) : Leads P R := by
  intro s hs
  obtain ⟨s', hfetch, hs'⟩ := h s hs
  obtain ⟨s'', hfetch', hs''⟩ := h' s' hs'
  exact ⟨s'', hfetch.trans hfetch', hs''⟩

theorem Leads.of_imp {P Q : Lexer → Prop} (h : ∀ s, P s → Q s) : Leads P Q :=
  fun s hs => ⟨s, Fetches.refl s, h s hs⟩

variable {s s' : Lexer} {gap rest : List Char} {c : Char}

def fetchRest (fuel : Nat) : Lex Unit := do
  let column := (← get).cursor.column
  if (← get).cursor.text.isEmpty then fetchEnd
  else
    closeBlocks (column < ·)
    fetch (fuel + 1)
    fetchAll fuel

def fetchToken (fuel : Nat) (column : Nat) : Lex Unit := do
  closeBlocks (column < ·)
  fetch (fuel + 1)
  fetchAll fuel

theorem fetchRest_eq (fuel : Nat) (s : Lexer) :
    fetchRest fuel s =
      if s.cursor.text.isEmpty then fetchEnd s else fetchToken fuel s.cursor.column s := by
  change (if s.cursor.text.isEmpty then fetchEnd else _ : Lex Unit) s = _
  split <;> rfl

theorem fetchAll_of_stops (h : Stops s.cursor.text) (fuel : Nat) :
    fetchAll (fuel + 1) s = fetchRest fuel s :=
  bind_of_eq (skipToToken_of_stops h fuel)

theorem fetches_gap (hgap : IsGap gap) (hrest : Stops rest) (h : s.cursor.text = gap ++ rest) :
    ∃ here, here.text = rest ∧ here.column = gapColumn gap s.cursor.column ∧
      Fetches s { s with
        cursor := here, keyAllowed := s.keyAllowed || (gap.contains '\n' && !s.inFlow) } := by
  have hlength : s.cursor.text.length = gap.length + rest.length := by
    rw [h, List.length_append]
  obtain ⟨here, hhere, hcolumn, hskip⟩ := skipToToken_gap hgap hrest h
  refine ⟨here, hhere, hcolumn, fun fuel hfuel => ⟨fuel, by rw [hhere]; omega, ?_⟩⟩
  obtain ⟨fuel, rfl⟩ : ∃ f, fuel = f + 1 := ⟨fuel - 1, by omega⟩
  refine (bind_of_eq (hskip _ (by omega))).trans ?_
  exact (fetchAll_of_stops (hhere.symm ▸ hrest) fuel).symm

/-! Closing blocks. -/

theorem closeBlocks_of_block (p : Nat → Bool) (h : s.inFlow = false) :
    closeBlocks p s = some ((), { s with
      blocks := s.blocks.drop (s.blocks.takeWhile p).length
      tokens := s.tokens ++ Array.replicate (s.blocks.takeWhile p).length .blockEnd }) :=
  congrArg (fun s => some ((), s)) (if_neg (ne_true_of_eq_false h))

theorem closeBlocks_cons {p : Nat → Bool} {b : Nat} {bs : List Nat} (hflow : s.inFlow = false)
    (hblocks : s.blocks = b :: bs) (hb : p b = true) :
    closeBlocks p s = closeBlocks p { s with blocks := bs, tokens := s.tokens.push .blockEnd } := by
  have hinner : ∀ ts, Lexer.inFlow { s with blocks := bs, tokens := ts } = false := fun _ => hflow
  rw [closeBlocks_of_block p hflow, closeBlocks_of_block p (hinner _), hblocks,
    List.takeWhile_cons_of_pos hb]
  simp [Array.replicate_succ']

theorem closeBlocks_of_head? {p : Nat → Bool} (h : ∀ b ∈ s.blocks.head?, p b = false) :
    closeBlocks p s = some ((), s) := by
  have hnone : s.blocks.takeWhile p = [] := by
    cases hblocks : s.blocks with
    | nil => rfl
    | cons b bs =>
      exact List.takeWhile_cons_of_neg (ne_true_of_eq_false (h b (by rw [hblocks]; rfl)))
  cases hflow : s.inFlow with
  | true => exact congrArg (fun s => some ((), s)) (if_pos hflow)
  | false =>
    rw [closeBlocks_of_block p hflow, hnone]
    simp

/-- Blocks that a line falls back behind are closed. -/
theorem fetches_close {b : Nat} {bs : List Nat} (htext : Stops s.cursor.text)
    (hflow : s.inFlow = false) (hblocks : s.blocks = b :: bs) (hb : s.cursor.column < b) :
    Fetches s { s with blocks := bs, tokens := s.tokens.push .blockEnd } := by
  intro fuel hfuel
  refine ⟨fuel, hfuel, ?_⟩
  obtain ⟨fuel, rfl⟩ : ∃ f, fuel = f + 1 := ⟨fuel - 1, by omega⟩
  have hbind : ∀ (p : Nat → Bool) (f : Unit → Lex Unit), p b = true → (closeBlocks p >>= f) s =
      (closeBlocks p >>= f) { s with blocks := bs, tokens := s.tokens.push .blockEnd } :=
    fun p f hp => congrArg (fun o : Option (Unit × Lexer) => o.bind fun r => f r.1 r.2)
      (closeBlocks_cons hflow hblocks hp)
  rw [fetchAll_of_stops htext, fetchAll_of_stops (s := { s with blocks := bs, tokens := _ }) htext,
    fetchRest_eq, fetchRest_eq]
  dsimp only
  cases s.cursor.text.isEmpty with
  | true => exact hbind _ _ rfl
  | false => exact hbind _ _ (decide_eq_true hb)

/-- A token that opens or closes no blocks by its column. -/
theorem fetches_token (htext : Stops s.cursor.text) (hne : s.cursor.text ≠ [])
    (hblocks : ∀ b ∈ s.blocks.head?, b ≤ s.cursor.column)
    (hless : s'.cursor.text.length < s.cursor.text.length)
    (h : ∀ fuel, s.cursor.text.length < fuel → fetch fuel s = some ((), s')) : Fetches s s' := by
  intro fuel hfuel
  obtain ⟨fuel, rfl⟩ : ∃ f, fuel = f + 1 := ⟨fuel - 1, by omega⟩
  refine ⟨fuel, by omega, ?_⟩
  have hclose : closeBlocks (s.cursor.column < ·) s = some ((), s) :=
    closeBlocks_of_head? fun b hb => decide_eq_false (Nat.not_lt.2 (hblocks b hb))
  rw [fetchAll_of_stops htext, fetchRest_eq, if_neg (by rwa [List.isEmpty_iff]), fetchToken,
    bind_of_eq hclose, bind_of_eq (h _ hfuel)]

/-! The token that begins with a character. -/

/-- The token that begins with a character and is no mark between documents. -/
def fetchFrom (fuel : Nat) (flow : Bool) (c : Char) (rest : List Char) : Lex Unit :=
  if c = '[' then fetchFlowStart .flowSequenceStart
  else if c = '\x7b' then fetchFlowStart .flowMappingStart
  else if c = ']' then fetchFlowEnd .flowSequenceEnd
  else if c = '\x7d' then fetchFlowEnd .flowMappingEnd
  else if c = ',' then fetchFlowEntry
  else if c = '-' && endsWord rest then fetchBlockEntry
  else if c = '?' && (flow || endsWord rest) then fetchKey
  else if c = ':' && (flow || endsWord rest) then fetchValue
  else if c = '*' then fetchNode (Token.reference <$> scanName)
  else if c = '&' then fetchNode (Token.anchor <$> scanName)
  else if c = '!' then fetchNode (scanTag flow)
  else if c = '|' && !flow then fetchBlockScalar .literal fuel
  else if c = '>' && !flow then fetchBlockScalar .folded fuel
  else if c = '\'' then fetchQuoted true fuel
  else if c = '"' then fetchQuoted false fuel
  else if beginsPlain flow (c :: rest) then fetchPlain fuel
  else refuse

theorem fetch_eq (fuel : Nat) (htext : s.cursor.text = c :: rest) (hc : c ∈ visibleChars)
    (hmark : s.cursor.atDocumentMark = false) :
    fetch fuel s = fetchFrom fuel s.inFlow c rest s := by
  have hdirective : ¬ (s.cursor.column = 0 && (c :: rest).head? = some '%') = true := by
    rw [Bool.and_eq_true, decide_eq_true_eq, decide_eq_true_eq]
    exact fun heq => (by decide : ∀ c ∈ visibleChars, c ≠ '%') c hc (Option.some.inj heq.2)
  have hget : (get : Lex Lexer) s = some (s, s) := rfl
  rw [fetch, bind_of_eq hget]
  simp only [htext, if_neg hdirective, hmark]
  rfl

theorem fetchFrom_word (fuel : Nat) (flow : Bool) (hc : c ∈ wordChars) (rest : List Char) :
    fetchFrom fuel flow c rest = fetchPlain fuel := by
  have hne : ∀ d : Char, (d.isAlphanum || d = '_') = false → c ≠ d := by
    rintro _ hd rfl
    exact ne_true_of_eq_false hd
      ((by decide : ∀ c ∈ wordChars, (c.isAlphanum || c = '_') = true) c hc)
  have hplain : ∀ c ∈ wordChars, (isBlank c || isBreak c || isIndicator c) = false := by decide
  have hbegins : beginsPlain flow (c :: rest) = true := by
    rw [beginsPlain, hplain c hc]
    · rfl
    · exact fun h => hne '-' rfl h
  simp [fetchFrom, hbegins, hne '[' rfl, hne ']' rfl, hne '\x7b' rfl, hne '\x7d' rfl, hne ',' rfl,
    hne '-' rfl, hne '?' rfl, hne ':' rfl, hne '*' rfl, hne '&' rfl, hne '!' rfl, hne '|' rfl,
    hne '>' rfl, hne '\'' rfl, hne '"' rfl]

/-! Possible keys. -/

theorem dropKey_of_optional (h : s.keys.head?.join.any (·.required) = false) :
    dropKey s = some ((), { s with keys := none :: s.keys.tail }) := by
  have hget : (get : Lex Lexer) s = some (s, s) := rfl
  have hrequire : require (!s.keys.head?.join.any (·.required)) s = some ((), s) :=
    if_pos (by rw [h]; rfl)
  rw [dropKey, bind_of_eq hget, bind_of_eq hrequire]
  rfl

theorem saveKey_of_not_allowed (h : s.keyAllowed = false) : saveKey s = some ((), s) := by
  have hget : (get : Lex Lexer) s = some (s, s) := rfl
  rw [saveKey, bind_of_eq hget, h]
  rfl

def keyHere (s : Lexer) : PossibleKey :=
  ⟨!s.inFlow && s.blocks.head? = some s.cursor.column, s.tokens.size, s.cursor.index,
    s.cursor.line, s.cursor.column⟩

theorem saveKey_of_allowed (h : s.keyAllowed = true)
    (hkey : s.keys.head?.join.any (·.required) = false) :
    saveKey s = some ((), { s with keys := some (keyHere s) :: s.keys.tail }) := by
  have hget : (get : Lex Lexer) s = some (s, s) := rfl
  rw [saveKey, bind_of_eq hget, if_pos h, bind_of_eq (dropKey_of_optional hkey)]
  rfl

theorem currentKey?_of_head? {k : PossibleKey} (hk : s.keys.head?.join = some k)
    (hline : k.line = s.cursor.line) (hindex : s.cursor.index ≤ k.index + 1024) :
    s.currentKey? = some k := by
  simp [Lexer.currentKey?, hk, hline, hindex]

theorem fetchNode_eq {scan : Read Token} {t : Token} {here : Cursor} {s₁ : Lexer}
    (hsave : saveKey s = some ((), s₁)) (hscan : scan s₁.cursor = some (t, here)) :
    fetchNode scan s = some ((), { s₁ with
      cursor := here, keyAllowed := false, tokens := s₁.tokens.push t }) := by
  have hread : read scan { s₁ with keyAllowed := false } =
      some (t, { s₁ with cursor := here, keyAllowed := false }) :=
    congrArg (Option.map _) hscan
  rw [fetchNode, bind_of_eq hsave]
  exact (bind_of_eq hread).trans rfl

theorem fetchPlain_eq {w : String} {broken : Bool} {here : Cursor} {s₁ : Lexer} {fuel : Nat}
    (hsave : saveKey s = some ((), s₁))
    (hscan : scanPlain s₁.inFlow s₁.contentColumn [] Gap.none fuel s₁.cursor =
      some ((w.toList.reverse, broken), here)) :
    fetchPlain fuel s = some ((), { s₁ with
      cursor := here, keyAllowed := broken, tokens := s₁.tokens.push (.scalar .plain w) }) := by
  have hget : (get : Lex Lexer) s₁ = some (s₁, s₁) := rfl
  have hread : read (scanPlain s₁.inFlow s₁.contentColumn [] Gap.none fuel) s₁ =
      some ((w.toList.reverse, broken), { s₁ with cursor := here }) :=
    congrArg (Option.map _) hscan
  have hword : String.ofList w.toList.reverse.reverse = w := by
    rw [List.reverse_reverse, String.ofList_toList]
  rw [fetchPlain, bind_of_eq hsave, bind_of_eq hget, bind_of_eq hread]
  change some ((), { s₁ with
    cursor := here, keyAllowed := broken,
    tokens := s₁.tokens.push (.scalar .plain (String.ofList w.toList.reverse.reverse)) }) = _
  rw [hword]

theorem openBlock_of_inFlow (h : s.inFlow = true) (column number : Nat) (t : Token) :
    openBlock column number t s = some ((), s) := by
  have hget : (get : Lex Lexer) s = some (s, s) := rfl
  rw [openBlock, bind_of_eq hget, h]
  rfl

/-- A colon after a possible key. -/
theorem fetchValue_eq {k : PossibleKey} {s₁ : Lexer} (hk : s.currentKey? = some k)
    (hopen : openBlock k.column k.number .blockMappingStart
      { s with tokens := s.tokens.insertIdxIfInBounds k.number .key } = some ((), s₁)) :
    fetchValue s = some ((), { s₁ with
      cursor := s₁.cursor.advance 1, keys := none :: s₁.keys.tail, keyAllowed := false,
      tokens := s₁.tokens.push .value }) := by
  have hget : (get : Lex Lexer) s = some (s, s) := rfl
  rw [fetchValue, bind_of_eq hget, hk]
  change (openBlock k.column k.number .blockMappingStart >>= fun _ => (do
    setKey none
    allowKey false
    read Read.skip
    emit .value : Lex Unit)) { s with tokens := s.tokens.insertIdxIfInBounds k.number .key } = _
  rw [bind_of_eq hopen]
  rfl

theorem insertIdxIfInBounds_length (ts us : List Token) (t : Token) :
    (ts ++ us).toArray.insertIdxIfInBounds ts.length t = (ts ++ t :: us).toArray := by
  rw [List.insertIdxIfInBounds_toArray]
  congr 1
  induction ts with
  | nil => rfl
  | cons t' ts ih => rw [List.cons_append, List.length_cons, List.insertIdx_succ_cons, ih]; rfl

/-! The end of a text. -/

theorem fetchAll_end (htext : s.cursor.text = []) (hflow : s.inFlow = false)
    (hkey : s.keys.head?.join.any (·.required) = false) (fuel : Nat) :
    ∃ s', fetchAll (fuel + 1) s = some ((), s') ∧
      s'.tokens.toList = s.tokens.toList ++ List.replicate s.blocks.length .blockEnd := by
  have hstops : Stops s.cursor.text := by
    rw [htext]
    rintro _ ⟨⟩
  have hall : s.blocks.takeWhile (fun _ => true) = s.blocks :=
    List.takeWhile_eq_self_iff.2 fun _ _ => rfl
  have hclose := closeBlocks_of_block (fun _ => true) hflow
  rw [hall] at hclose
  have hfetch : fetchAll (fuel + 1) s = dropKey { s with
      blocks := s.blocks.drop s.blocks.length
      tokens := s.tokens ++ Array.replicate s.blocks.length .blockEnd } := by
    rw [fetchAll_of_stops hstops, fetchRest_eq, htext, List.isEmpty_nil, if_pos rfl, fetchEnd,
      bind_of_eq hclose]
  exact ⟨_, hfetch.trans (dropKey_of_optional hkey), by simp⟩

end Lex

/-- The tokens of a text are those fetched up to its end, and the ends of the blocks still open. -/
theorem tokens?_eq {text : String} (hallowed : ∀ c ∈ text.toList, isAllowed c = true) {s : Lexer}
    (h : Lex.Fetches (Lexer.start text.toList) s) (htext : s.cursor.text = [])
    (hflow : s.inFlow = false) (hkey : s.keys.head?.join.any (·.required) = false) :
    tokens? text = some (s.tokens.toList ++ List.replicate s.blocks.length .blockEnd) := by
  obtain ⟨fuel, hfuel, hfetch⟩ := h (text.toList.length + 1) (Nat.lt_succ_self _)
  obtain ⟨fuel, rfl⟩ : ∃ f, fuel = f + 1 := ⟨fuel - 1, by omega⟩
  obtain ⟨s', hend, htokens⟩ := Lex.fetchAll_end htext hflow hkey fuel
  have hguard : text.toList.all isAllowed = true := List.all_eq_true.2 hallowed
  simp only [tokens?, hguard, hfetch, hend, ← htokens]
  rfl

end Yaml

end EquivalentCircuit
