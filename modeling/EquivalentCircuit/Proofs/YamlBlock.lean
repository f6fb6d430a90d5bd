import EquivalentCircuit.Proofs.YamlSteps

/-! The tokens of block texts, line by line. A line holds a key and perhaps a word, and it may begin
with the hyphen of an item. Its column closes the blocks that it falls back behind and opens those
that it goes beyond. -/

namespace EquivalentCircuit

namespace Yaml

namespace Lex

/-- At a column of a block, with the columns of the open blocks and the tokens so far. -/
structure Ready (allowed : Bool) (blocks : List Nat) (tokens : List Token) (column : Nat)
    (text : List Char) (s : Lexer) : Prop where
  allowed : s.keyAllowed = allowed
  blocks : s.blocks = blocks
  tokens : s.tokens = tokens.toArray
  column : s.cursor.column = column
  text : s.cursor.text = text
  keys : s.keys = [none]

variable {allowed : Bool} {bs : List Nat} {ts : List Token} {column : Nat}
  {text gap rest : List Char} {c : Char} {s : Lexer}

namespace Ready

theorem inFlow (h : Ready allowed bs ts column text s) : s.inFlow = false := by
  rw [Lexer.inFlow, h.keys]
  rfl

theorem optional (h : Ready allowed bs ts column text s) :
    s.keys.head?.join.any (·.required) = false := by
  rw [h.keys]
  rfl

theorem fetches {s' : Lexer} (h : Ready allowed bs ts column (c :: rest) s) (hc : c ∈ visibleChars)
    (hmark : isDocumentMark (c :: rest) = false) (hbs : ∀ b ∈ bs.head?, b ≤ column)
    (hless : s'.cursor.text.length ≤ rest.length)
    (hfetch : ∀ fuel, rest.length < fuel → fetchFrom fuel false c rest s = some ((), s')) :
    Fetches s s' := by
  have hlength : s.cursor.text.length = rest.length + 1 := by rw [h.text, List.length_cons]
  refine fetches_token ?_ ?_ ?_ (by omega) fun fuel hfuel => ?_
  · rw [h.text]
    rintro _ ⟨⟩
    exact hc
  · rw [h.text]
    exact List.cons_ne_nil _ _
  · rw [h.blocks, h.column]
    exact hbs
  · rw [fetch_eq fuel h.text hc (atDocumentMark_of_text (h.text ▸ hmark)), h.inFlow]
    exact hfetch fuel (by omega)

end Ready

/-- Past blanks and line breaks; after a line break a key may begin. -/
theorem leads_gap (hgap : IsGap gap) (hrest : Stops rest) :
    Leads (Ready allowed bs ts column (gap ++ rest))
      (Ready (allowed || gap.contains '\n') bs ts (gapColumn gap column) rest) := by
  intro s hs
  obtain ⟨here, hhere, hcolumn, hfetch⟩ := fetches_gap hgap hrest hs.text
  refine ⟨_, hfetch, ?_, hs.blocks, hs.tokens, ?_, hhere, hs.keys⟩
  · rw [hs.allowed, hs.inFlow, Bool.not_false, Bool.and_true]
  · rw [hcolumn, hs.column]

/-! Blocks. -/

/-- The blocks left open at a column, and the ends of the others. -/
def closeTo (column : Nat) : List Nat → List Nat × List Token
  | [] => ([], [])
  | b :: bs =>
    if column < b then ((closeTo column bs).1, .blockEnd :: (closeTo column bs).2)
    else (b :: bs, [])

/-- The blocks with the one that begins at a column, and its start if it is new. -/
def openAt (column : Nat) (t : Token) (bs : List Nat) : List Nat × List Token :=
  if bs.head?.all (· < column) then (column :: bs, [t]) else (bs, [])

theorem head_closeTo (column : Nat) (bs : List Nat) :
    ∀ b ∈ (closeTo column bs).1.head?, b ≤ column := by
  induction bs with
  | nil => rintro _ ⟨⟩
  | cons b bs ih =>
    rw [closeTo]
    split
    · exact ih
    · rintro _ ⟨⟩
      omega

theorem head_openAt {bs : List Nat} (h : ∀ b ∈ bs.head?, b ≤ column) (t : Token) :
    (openAt column t bs).1.head? = some column := by
  rw [openAt]
  split
  · rfl
  · rename_i hopen
    cases bs with
    | nil => exact absurd rfl hopen
    | cons b bs =>
      have hle : b ≤ column := h b rfl
      have hlt : ¬ b < column := fun hlt => hopen (decide_eq_true hlt)
      exact congrArg some (Nat.le_antisymm hle (Nat.le_of_not_lt hlt))

theorem leads_close (htext : Stops text) :
    Leads (Ready allowed bs ts column text)
      (Ready allowed (closeTo column bs).1 (ts ++ (closeTo column bs).2) column text) := by
  induction bs generalizing ts with
  | nil =>
    rw [closeTo, List.append_nil]
    exact Leads.of_imp fun _ h => h
  | cons b bs ih =>
    rw [closeTo]
    split
    · rename_i hb
      rw [List.append_cons ts]
      refine Leads.trans (fun s hs => ?_) ih
      refine ⟨_, fetches_close (hs.text ▸ htext) hs.inFlow hs.blocks (hs.column ▸ hb), hs.allowed,
        rfl, ?_, hs.column, hs.text, hs.keys⟩
      rw [hs.tokens, List.push_toArray]
    · rw [List.append_nil]
      exact Leads.of_imp fun _ h => h

/-- A block is opened before the tokens from a given one on. -/
theorem openBlock_eq {us : List Token} (hflow : s.inFlow = false) (hblocks : s.blocks = bs)
    (htokens : s.tokens = (ts ++ us).toArray) (t : Token) :
    openBlock column ts.length t s = some ((), { s with
      blocks := (openAt column t bs).1
      tokens := (ts ++ (openAt column t bs).2 ++ us).toArray }) := by
  have hget : (get : Lex Lexer) s = some (s, s) := rfl
  rw [openBlock, bind_of_eq hget, hflow, hblocks, openAt]
  cases hopen : bs.head?.all (· < column) with
  | true =>
    change some ((), { s with
      blocks := column :: bs, tokens := s.tokens.insertIdxIfInBounds ts.length t }) = _
    rw [htokens, insertIdxIfInBounds_length, List.append_assoc]
    rfl
  | false =>
    simp only [Bool.false_eq_true, if_false, List.append_nil, ← hblocks, ← htokens]
    rfl

/-! Marks. -/

theorem fetchBlockEntry_eq (h : Ready true bs ts column text s) :
    fetchBlockEntry s = some ((), {
      cursor := s.cursor.advance 1
      blocks := (openAt column .blockSequenceStart bs).1
      keys := [none]
      keyAllowed := true
      tokens := (ts ++ (openAt column .blockSequenceStart bs).2 ++ [Token.blockEntry]).toArray }) := by
  have hget : (get : Lex Lexer) s = some (s, s) := rfl
  have hsize : s.tokens.size = ts.length := by rw [h.tokens, List.size_toArray]
  have htokens : s.tokens = (ts ++ []).toArray := by rw [h.tokens, List.append_nil]
  have hrequire : require s.keyAllowed s = some ((), s) := if_pos h.allowed
  have hbegin : beginEntry .blockSequenceStart s = some ((), { s with
      blocks := (openAt column .blockSequenceStart bs).1
      tokens := (ts ++ (openAt column .blockSequenceStart bs).2 ++ []).toArray }) := by
    rw [beginEntry, bind_of_eq hget, h.inFlow]
    change (require s.keyAllowed >>= fun _ =>
      openBlock s.cursor.column s.tokens.size .blockSequenceStart) s = _
    rw [bind_of_eq hrequire, h.column, hsize, openBlock_eq h.inFlow h.blocks htokens]
  have hdrop := fun bs us =>
    @dropKey_of_optional ⟨s.cursor, bs, s.keys, s.keyAllowed, us⟩ h.optional
  rw [fetchBlockEntry, bind_of_eq hbegin, bind_of_eq (hdrop _ _)]
  change some ((), (⟨_, _, none :: s.keys.tail, true, _⟩ : Lexer)) = _
  rw [h.keys, List.append_nil]
  simp

/-- The hyphen of an item. -/
theorem leads_hyphen (hbs : ∀ b ∈ bs.head?, b ≤ column) (htext : Stops text) :
    Leads (Ready true bs ts column ('-' :: ' ' :: text))
      (Ready true (openAt column .blockSequenceStart bs).1
        (ts ++ (openAt column .blockSequenceStart bs).2 ++ [.blockEntry]) (column + 2) text) := by
  refine Leads.trans (fun s hs => ?_)
    (@leads_gap true _ _ (column + 1) [' '] text (by decide) htext)
  have hnext : (s.cursor.advance 1).text = [' '] ++ text := Cursor.advance_append ['-'] hs.text
  exact ⟨_, hs.fetches (by decide) rfl hbs (Nat.le_of_eq (congrArg List.length hnext))
    fun fuel _ => fetchBlockEntry_eq hs, rfl, rfl, rfl, congrArg (· + 1) hs.column, hnext, rfl⟩

def afterPlain (w : String) (s : Lexer) : Lexer :=
  { s with
    cursor := s.cursor.advance w.toList.length
    keys := [some (keyHere s)]
    keyAllowed := false
    tokens := s.tokens.push (.scalar .plain w) }

theorem Ready.fetches_plain {w : String} (hw : IsWord w) (hbs : ∀ b ∈ bs.head?, b ≤ column)
    (hrest : endsWord rest = true) (h : Ready true bs ts column (w.toList ++ ':' :: rest) s) :
    Fetches s (afterPlain w s) ∧ (afterPlain w s).cursor.text = ':' :: rest := by
  obtain ⟨c, cs, hw', hc⟩ := hw.exists_cons
  have hnext : (s.cursor.advance w.toList.length).text = ':' :: rest :=
    Cursor.advance_append _ h.text
  have hrun : scanRun false (':' :: rest) = some [] := by
    simp [scanRun, hrest, isBlank, isBreak]
  have hscan := @scanPlain_ended w hw false ':' rest hrun ⟨rfl, rfl⟩ s.cursor h.text
    s.contentColumn
  have hsave : saveKey s = some ((), { s with keys := [some (keyHere s)] }) := by
    rw [saveKey_of_allowed h.allowed h.optional, h.keys, List.tail_cons]
  have hstart : Ready true bs ts column (c :: (cs ++ ':' :: rest)) s := by
    rwa [hw', List.cons_append] at h
  refine ⟨hstart.fetches (visible_of_word hc) (isDocumentMark_word hc _) hbs ?_
    fun fuel hfuel => ?_, hnext⟩
  · rw [afterPlain, hnext, List.length_append]
    omega
  · obtain ⟨fuel, rfl⟩ : ∃ f, fuel = f + 1 := ⟨fuel - 1, by omega⟩
    rw [fetchFrom_word _ _ hc]
    exact fetchPlain_eq hsave (hscan fuel)

/-- A colon makes a key of the token before it. -/
theorem leads_colon {t : Token} {k : PossibleKey} (hkeys : s.keys = [some k])
    (hblocks : ∀ b ∈ s.blocks.head?, b ≤ s.cursor.column) (htext : s.cursor.text = ':' :: rest)
    (hrest : endsWord rest = true) (hkey : s.currentKey? = some k)
    (htokens : s.tokens = (ts ++ [t]).toArray) (hnumber : k.number = ts.length) :
    ∃ s', Fetches s s' ∧ Ready false (openAt k.column .blockMappingStart s.blocks).1
      (ts ++ (openAt k.column .blockMappingStart s.blocks).2 ++ [.key, t, .value])
      (s.cursor.column + 1) rest s' := by
  have hflow : s.inFlow = false := by
    rw [Lexer.inFlow, hkeys]
    rfl
  have hinsert : s.tokens.insertIdxIfInBounds k.number .key = (ts ++ [.key, t]).toArray := by
    rw [htokens, hnumber, insertIdxIfInBounds_length]
  have hopen := @openBlock_eq s.blocks ts k.column
    { s with tokens := s.tokens.insertIdxIfInBounds k.number .key } [.key, t] hflow rfl hinsert
    .blockMappingStart
  rw [← hnumber] at hopen
  have hnext : (s.cursor.advance 1).text = rest := Cursor.advance_append [':'] htext
  have hfetch : ∀ fuel, fetchFrom fuel false ':' rest = fetchValue := fun fuel => by
    simp [fetchFrom, hrest]
  have hpush : (ts ++ (openAt k.column .blockMappingStart s.blocks).2 ++ [.key, t]).toArray.push
      .value = (ts ++ (openAt k.column .blockMappingStart s.blocks).2 ++
        [.key, t, .value]).toArray := by
    rw [List.push_toArray, List.append_assoc _ [_, _]]
    rfl
  refine ⟨⟨s.cursor.advance 1, (openAt k.column .blockMappingStart s.blocks).1, [none], false, _⟩,
    fetches_token ?_ ?_ hblocks ?_ fun fuel _ => ?_, rfl, rfl, rfl, rfl, hnext, rfl⟩
  · rw [htext]
    rintro _ ⟨⟩
    decide
  · rw [htext]
    exact List.cons_ne_nil _ _
  · rw [htext]
    exact Nat.lt_of_le_of_lt (Nat.le_of_eq (congrArg List.length hnext)) (Nat.lt_succ_self _)
  · rw [fetch_eq fuel htext (by decide) (atDocumentMark_of_text (htext ▸ rfl)), hflow, hfetch,
      fetchValue_eq hkey hopen]
    dsimp only
    rw [hpush, hkeys, List.tail_cons]

/-- A key with its colon. -/
theorem leads_blockKey {w : String} (hw : IsWord w) (hbs : ∀ b ∈ bs.head?, b ≤ column)
    (hrest : endsWord rest = true) :
    Leads (Ready true bs ts column (w.toList ++ ':' :: rest))
      (Ready false (openAt column .blockMappingStart bs).1
        (ts ++ (openAt column .blockMappingStart bs).2 ++ [.key, .scalar .plain w, .value])
        (column + w.toList.length + 1) rest) := by
  intro s hs
  obtain ⟨hplain, htext⟩ := hs.fetches_plain hw hbs hrest
  have hlength := hw.length_le
  have hkey : (afterPlain w s).currentKey? = some (keyHere s) := by
    have hindex := s.cursor.index_advance_le w.toList.length
    exact currentKey?_of_head? rfl rfl (show (s.cursor.advance _).index ≤ s.cursor.index + 1024 by
      omega)
  have hnumber : (keyHere s).number = ts.length := by
    rw [keyHere, hs.tokens, List.size_toArray]
  have hblocks : ∀ b ∈ (afterPlain w s).blocks.head?, b ≤ (afterPlain w s).cursor.column := by
    intro b hb
    change b ≤ s.cursor.column + w.toList.length
    have hle := hbs b (hs.blocks ▸ hb)
    rw [hs.column]
    omega
  have htokens : (afterPlain w s).tokens = (ts ++ [Token.scalar .plain w]).toArray := by
    rw [afterPlain, hs.tokens, List.push_toArray]
  obtain ⟨s', hcolon, hs'⟩ := leads_colon rfl hblocks htext hrest hkey htokens hnumber
  have hcolumn : (afterPlain w s).cursor.column = column + w.toList.length :=
    congrArg (· + w.toList.length) hs.column
  have hbs' : (afterPlain w s).blocks = bs := hs.blocks
  have hkeyColumn : (keyHere s).column = column := hs.column
  rw [hcolumn, hbs', hkeyColumn] at hs'
  exact ⟨s', hplain.trans hcolon, hs'⟩

/-! Values. -/

def newLine (indent : Nat) : List Char := '\n' :: List.replicate indent ' '

theorem isGap_newLine (indent : Nat) : IsGap (newLine indent) := by
  refine isGap_cons.2 ⟨.inr rfl, fun c hc => ?_⟩
  exact .inl (List.eq_of_mem_replicate hc)

theorem gapColumn_newLine (indent column : Nat) : gapColumn (newLine indent) column = indent := by
  have hspaces : ∀ n column, gapColumn (List.replicate n ' ') column = column + n := by
    intro n
    induction n with
    | zero => exact fun column => rfl
    | succ n ih =>
      intro column
      rw [List.replicate_succ, gapColumn, if_neg (by decide), ih]
      omega
  rw [newLine, gapColumn, if_pos rfl, hspaces, Nat.zero_add]

theorem contains_newLine (indent : Nat) : (newLine indent).contains '\n' = true := by
  rw [newLine, List.contains_cons, beq_self_eq_true, Bool.true_or]

theorem leads_newLine (htext : Stops text) (indent : Nat) :
    Leads (Ready allowed bs ts column (newLine indent ++ text)) (Ready true bs ts indent text) := by
  have hgap := @leads_gap allowed bs ts column (newLine indent) text (isGap_newLine indent) htext
  rwa [contains_newLine, Bool.or_true, gapColumn_newLine] at hgap

/-- A word that belongs to a key, up to the next line. -/
theorem leads_blockValue {w : String} (hw : IsWord w) (htext : Stops text) {b indent : Nat}
    (hb : b ≤ column) (hindent : indent ≤ b) :
    Leads (Ready false (b :: bs) ts column (' ' :: (w.toList ++ (newLine indent ++ text))))
      (Ready true (b :: bs) (ts ++ [.scalar .plain w]) indent text) := by
  obtain ⟨c, cs, hw', hc⟩ := hw.exists_cons
  refine (@leads_gap false (b :: bs) ts column [' '] _ (by decide) (stops_word hw _)).trans
    fun s hs => ?_
  have hcontent : s.contentColumn = b + 1 := by rw [Lexer.contentColumn, hs.blocks]
  obtain ⟨here, hhere, hcolumn, hscan⟩ := @scanPlain_gap (newLine indent) text w hw false
    (isGap_newLine indent) (List.cons_ne_nil _ _) htext s.cursor hs.text s.contentColumn
    (.inr ⟨rfl, by rw [gapColumn_newLine, hcontent]; omega⟩)
  rw [gapColumn_newLine] at hcolumn
  rw [contains_newLine] at hscan
  have hstart :
      Ready false (b :: bs) ts (column + 1) (c :: (cs ++ (newLine indent ++ text))) s := by
    have htext := hs.text
    rw [hw', List.cons_append] at htext
    exact ⟨hs.allowed, hs.blocks, hs.tokens, hs.column, htext, hs.keys⟩
  refine ⟨{ s with
    cursor := here, keyAllowed := true, tokens := s.tokens.push (.scalar .plain w) },
    hstart.fetches (visible_of_word hc) (isDocumentMark_word hc _) ?_ ?_ fun fuel hfuel => ?_,
    rfl, hs.blocks, ?_, hcolumn, hhere, hs.keys⟩
  · rintro _ ⟨⟩
    omega
  · dsimp only
    rw [hhere, List.length_append, List.length_append]
    omega
  · rw [List.length_append, List.length_append] at hfuel
    obtain ⟨fuel, rfl⟩ : ∃ f, fuel = f + 1 := ⟨fuel - 1, by omega⟩
    rw [fetchFrom_word _ _ hc]
    refine fetchPlain_eq (saveKey_of_not_allowed hs.allowed) ?_
    rw [hs.inFlow]
    exact hscan fuel (by omega)
  · rw [hs.tokens, List.push_toArray]

end Lex

end Yaml

end EquivalentCircuit
