import EquivalentCircuit.Policy.Yaml
import EquivalentCircuit.Proofs.BlockLines
import EquivalentCircuit.Proofs.FlowTexts
import EquivalentCircuit.Yaml.Printer

/-! Nodes laid out on lines. Written texts and tokens meet here: a node is written as the lines that
it is laid out on, and the tokens of the lines are those of the node. -/

namespace EquivalentCircuit

namespace Yaml

namespace Line

/-- As the first line of an item whose hyphen stands at a column. -/
def hyphenate (column : Nat) (l : Line) : Line := { l with column := column, hyphen := true }

def full (l : Line) : List Char := List.replicate l.column ' ' ++ l.chars

end Line

def valueColumn (column : Nat) : Node → Nat
  | .mapping _ _ => column + 2
  | _ => column

/-- Lines of a mapping, or of a sequence of mappings, whose keys or hyphens stand at a column. All
scalars are words. -/
inductive Laid : Nat → Node → List Line → Prop
  | noEntries {c : Nat} : Laid c (.mapping none []) []
  | word {c : Nat} {k w : String} {es : List (Node × Node)} {ls : List Line} (hk : IsWord k)
      (hw : IsWord w) (more : Laid c (.mapping none es) ls) :
      Laid c (.mapping none ((.plain k, .plain w) :: es)) (⟨c, false, k, some w⟩ :: ls)
  | nest {c : Nat} {k : String} {v : Node} {es : List (Node × Node)} {l : Line} {ls ms : List Line}
      (hk : IsWord k) (value : Laid (valueColumn c v) v (l :: ls))
      (more : Laid c (.mapping none es) ms) :
      Laid c (.mapping none ((.plain k, v) :: es)) (⟨c, false, k, none⟩ :: (l :: ls ++ ms))
  | noItems {c : Nat} : Laid c (.sequence none []) []
  | item {c : Nat} {es : List (Node × Node)} {vs : List Node} {l : Line} {ls ms : List Line}
      (first : Laid (c + 2) (.mapping none es) (l :: ls)) (more : Laid c (.sequence none vs) ms) :
      Laid c (.sequence none (.mapping none es :: vs)) (l.hyphenate c :: (ls ++ ms))

namespace Laid

variable {c : Nat} {v : Node} {l : Line} {ls : List Line}

theorem column_eq (h : Laid c v (l :: ls)) : l.column = c := by
  cases h <;> rfl

theorem hyphen_eq {a : Option Nat} {es : List (Node × Node)}
    (h : Laid c (.mapping a es) (l :: ls)) : l.hyphen = false := by
  cases h <;> rfl

theorem keyColumn_hyphenate {a : Option Nat} {es : List (Node × Node)}
    (h : Laid (c + 2) (.mapping a es) (l :: ls)) : (l.hyphenate c).keyColumn = l.keyColumn := by
  rw [Line.keyColumn, Line.keyColumn, h.hyphen_eq]
  exact h.column_eq.symm

theorem isWords (h : Laid c v ls) : ∀ l ∈ ls, l.IsWords := by
  induction h with
  | noEntries | noItems => exact List.forall_mem_nil _
  | word hk hw _ ih => exact List.forall_mem_cons.2 ⟨⟨hk, by rintro _ ⟨⟩; exact hw⟩, ih⟩
  | nest hk _ _ ihv ih =>
    exact List.forall_mem_cons.2 ⟨⟨hk, by rintro _ ⟨⟩⟩, List.forall_mem_append.2 ⟨ihv, ih⟩⟩
  | item _ _ ihv ih =>
    obtain ⟨hl, hls⟩ := List.forall_mem_cons.1 ihv
    exact List.forall_mem_cons.2 ⟨⟨hl.key, hl.value⟩, List.forall_mem_append.2 ⟨hls, ih⟩⟩

/-- Lines may follow that are not indented further. -/
theorem chained_append (h : Laid c v ls) {ms : List Line} (hms : firstColumn ms ≤ c)
    (hchained : Chained ms) : firstColumn (ls ++ ms) ≤ c ∧ Chained (ls ++ ms) := by
  induction h generalizing ms with
  | noEntries | noItems => exact ⟨hms, hchained⟩
  | word _ _ _ ih => exact ⟨Nat.le_refl _, fun _ => (ih hms hchained).1, (ih hms hchained).2⟩
  | @nest c k v es l ls ms' _ _ _ ihv ih =>
    have hc : c ≤ valueColumn c v := by
      cases v <;> simp [valueColumn]
    obtain ⟨hfirst, hmore⟩ := ih hms hchained
    have hvalue := (ihv (Nat.le_trans hfirst hc) hmore).2
    rw [← List.append_assoc] at hvalue
    exact ⟨Nat.le_refl _, (nomatch ·), hvalue⟩
  | @item c es vs l ls ms' first _ ihv ih =>
    obtain ⟨hfirst, hmore⟩ := ih hms hchained
    have hvalue := (ihv (Nat.le_trans hfirst (Nat.le_add_right _ _)) hmore).2
    rw [List.cons_append, ← List.append_assoc, Chained, ← first.keyColumn_hyphenate] at hvalue
    exact ⟨Nat.le_refl _, hvalue⟩

/-! Written texts. -/

theorem map_indent (c : Nat) (lines : List String) :
    (lines.map ("  " ++ ·)).map (fun s => List.replicate c ' ' ++ s.toList) =
      lines.map fun s => List.replicate (c + 2) ' ' ++ s.toList := by
  rw [List.map_map]
  refine List.map_congr_left fun s _ => ?_
  simp [List.replicate_add]

theorem entryLines_eq (h : Laid (valueColumn c v) v ls) (k : String) :
    (Node.entryLines k v).map (fun s => List.replicate c ' ' ++ s.toList) =
      Line.full ⟨c, false, k, none⟩ ::
        v.lines.map fun s => List.replicate (valueColumn c v) ' ' ++ s.toList := by
  have hkey : (k ++ ":").toList = k.toList ++ [':'] := String.toList_append
  cases v with
  | mapping a es =>
    rw [Node.entryLines, List.map_cons, map_indent, hkey]
    rfl
  | sequence a vs =>
    rw [Node.entryLines, List.map_cons, hkey]
    rfl
  | scalar | reference => nomatch h

theorem full_hyphenate {a : Option Nat} {es : List (Node × Node)}
    (h : Laid (c + 2) (.mapping a es) (l :: ls)) {line : String}
    (hline : l.full = List.replicate (c + 2) ' ' ++ line.toList) :
    (l.hyphenate c).full = List.replicate c ' ' ++ ("- " ++ line).toList := by
  rw [Line.full, h.column_eq] at hline
  have hchars : line.toList = l.key.toList ++ ':' :: valueChars l.value := by
    rw [← List.append_cancel_left hline, Line.chars, h.hyphen_eq]
    rfl
  simp [Line.full, Line.chars, Line.hyphenate, hchars]

/-- The lines that a node is laid out on are those that it is written as. -/
theorem map_full (h : Laid c v ls) :
    ls.map Line.full = v.lines.map fun s => List.replicate c ' ' ++ s.toList := by
  induction h with
  | noEntries | noItems => rfl
  | word _ _ _ ih =>
    rw [List.map_cons, ih]
    simp [Line.full, Line.chars, valueChars, Node.lines, Node.mappingLines, Node.lineText,
      Node.entryLines, Node.plain]
  | @nest c k v es l ls ms _ value _ ihv ih =>
    have hlines : Node.lines (.mapping none ((.plain k, v) :: es)) =
      Node.entryLines k v ++ Node.lines (.mapping none es) := rfl
    rw [hlines, List.map_append, entryLines_eq value, ← ihv, ← ih, List.map_cons, List.map_append]
    rfl
  | @item c es vs l ls ms first _ ihv ih =>
    obtain ⟨line, lines, hlines, hline, hmore⟩ := List.map_eq_cons_iff.1 ihv.symm
    have hitems : Node.lines (.sequence none (.mapping none es :: vs)) =
      Node.itemLines (Node.lines (.mapping none es)) ++ Node.lines (.sequence none vs) := rfl
    rw [hitems, hlines, Node.itemLines, List.map_append, ← ih, List.map_cons, List.map_append,
      List.map_cons, map_indent, hmore, ← first.full_hyphenate hline.symm]
    rfl

end Laid

/-- A text of lines, with the indentation of the first. -/
theorem indent_linesText (ls : List Line) :
    List.replicate (firstColumn ls) ' ' ++ linesText ls = ls.flatMap fun l => l.full ++ ['\n'] := by
  induction ls with
  | nil => rfl
  | cons l ls ih =>
    have hfirst : firstColumn (l :: ls) = l.column := rfl
    rw [hfirst, List.flatMap_cons, ← ih, linesText, Lex.newLine, Line.full]
    simp only [List.append_assoc, List.cons_append, List.nil_append]

theorem Laid.text_eq {v : Node} {ls : List Line} (h : Laid 0 v ls) (hfirst : firstColumn ls = 0) :
    v.text.toList = linesText ls := by
  have hlines := indent_linesText ls
  have hfull : ls.map Line.full = v.lines.map String.toList := h.map_full
  rw [hfirst, List.replicate_zero, List.nil_append] at hlines
  rw [Node.text, toList_joinLines, hlines, ← List.flatMap_map Line.full fun cs => cs ++ ['\n'],
    hfull, List.flatMap_map]

/-- The text of a mapping begins with a key. -/
theorem Laid.text_begins {a : Option Nat} {es : List (Node × Node)} {l : Line} {ls : List Line}
    (h : Laid 0 (.mapping a es) (l :: ls)) :
    ∃ key t, IsWord key ∧ (Node.text (.mapping a es)).toList = key.toList ++ ':' :: t := by
  obtain ⟨hl, -⟩ := List.forall_mem_cons.1 h.isWords
  have htext := h.text_eq h.column_eq
  simp only [linesText, Line.chars, h.hyphen_eq, Bool.false_eq_true, if_false, List.nil_append,
    List.append_assoc, List.cons_append] at htext
  exact ⟨l.key, _, hl.key, htext⟩

theorem isWritten_newLine (indent : Nat) : IsWritten (Lex.newLine indent) :=
  isWritten_cons.2 ⟨by decide, fun _ hc => List.eq_of_mem_replicate hc ▸ by decide⟩

theorem Line.IsWords.isWritten {l : Line} (h : l.IsWords) : IsWritten l.chars := by
  have hvalue : IsWritten (valueChars l.value) := by
    cases hv : l.value with
    | none => exact List.forall_mem_nil _
    | some v => exact isWritten_cons.2 ⟨by decide, (h.value v hv).isWritten⟩
  have hkey : IsWritten (l.key.toList ++ ':' :: valueChars l.value) :=
    isWritten_append.2 ⟨h.key.isWritten, isWritten_cons.2 ⟨by decide, hvalue⟩⟩
  rw [Line.chars]
  split
  · exact isWritten_append.2 ⟨by decide, hkey⟩
  · exact hkey

theorem isWritten_linesText {ls : List Line} (h : ∀ l ∈ ls, l.IsWords) :
    IsWritten (linesText ls) := by
  induction ls with
  | nil => exact List.forall_mem_nil _
  | cons l ls ih =>
    obtain ⟨hl, hls⟩ := List.forall_mem_cons.1 h
    exact isWritten_append.2
      ⟨hl.isWritten, isWritten_append.2 ⟨isWritten_newLine _, ih hls⟩⟩

/-! Tokens. -/

mutual

/-- The tokens of a node. A sequence has no indentation of its own. -/
def blockTokens : Node → List Token
  | .scalar _ _ style text => [.scalar style text]
  | .sequence _ vs => itemTokens vs
  | .mapping _ es => .blockMappingStart :: (entryTokens es ++ [.blockEnd])
  | .reference _ => []

def itemTokens : List Node → List Token
  | [] => []
  | v :: vs => .blockEntry :: (blockTokens v ++ itemTokens vs)

def entryTokens : List (Node × Node) → List Token
  | [] => []
  | (k, v) :: es => .key :: (blockTokens k ++ .value :: (blockTokens v ++ entryTokens es))

end

def innerTokens : Node → List Token
  | .mapping _ es => entryTokens es
  | .sequence _ vs => itemTokens vs
  | _ => []

open Yaml.Lex

section Fetching

variable {c d : Nat} {bs inner : List Nat} {l : Line} {ls ms : List Line} {us ws : List Token}

theorem closeTo_append (h : ∀ b ∈ inner, c < b) :
    closeTo c (inner ++ c :: bs) = (c :: bs, List.replicate inner.length .blockEnd) := by
  induction inner with
  | nil => exact if_neg (Nat.lt_irrefl c)
  | cons b inner ih =>
    obtain ⟨hb, hinner⟩ := List.forall_mem_cons.1 h
    rw [List.cons_append, closeTo, if_pos hb, ih hinner]
    rfl

theorem closeTo_of_head? (h : ∀ b ∈ bs.head?, b ≤ c) : closeTo c bs = (bs, []) := by
  cases bs with
  | nil => rfl
  | cons b bs => exact if_neg (Nat.not_lt.2 (h b rfl))

theorem openAt_self (c : Nat) (t : Token) (bs : List Nat) :
    openAt c t (c :: bs) = (c :: bs, []) :=
  if_neg (by simp)

theorem openAt_of_head? (h : ∀ b ∈ bs.head?, b < c) (t : Token) :
    openAt c t bs = (c :: bs, [t]) := by
  refine if_pos ?_
  cases bs with
  | nil => rfl
  | cons b bs => exact decide_eq_true (h b rfl)

/-- A line at the column of an open block ends the blocks beyond it. -/
theorem fetch_append (hcolumn : l.column = c) (hhyphen : l.hyphen = false)
    (h : ∀ b ∈ inner, c < b) :
    l.fetch (inner ++ c :: bs) = (c :: bs, List.replicate inner.length .blockEnd ++ l.tokens) := by
  simp [Line.fetch, Line.item, Line.keyColumn, hcolumn, hhyphen, closeTo_append h, openAt_self]

/-- A line beyond the open blocks starts one of its own. -/
theorem fetch_start (hcolumn : l.column = d) (hhyphen : l.hyphen = false)
    (h : ∀ b ∈ bs.head?, b < d) :
    l.fetch bs = ((l.fetch (d :: bs)).1, .blockMappingStart :: (l.fetch (d :: bs)).2) := by
  have hself := @fetch_append d bs [] l hcolumn hhyphen (List.forall_mem_nil _)
  rw [List.nil_append] at hself
  rw [hself]
  simp [Line.fetch, Line.item, Line.keyColumn, hcolumn, hhyphen,
    closeTo_of_head? fun b hb => Nat.le_of_lt (h b hb), openAt_of_head? h]

theorem fetch_hyphenate (hcolumn : l.column = c + 2) (hhyphen : l.hyphen = false)
    (h : ∀ b ∈ inner, c < b) :
    (l.hyphenate c).fetch (inner ++ c :: bs) = ((l.fetch ((c + 2) :: c :: bs)).1,
      List.replicate inner.length .blockEnd ++ [.blockEntry, .blockMappingStart] ++
        (l.fetch ((c + 2) :: c :: bs)).2) := by
  have hself := @fetch_append (c + 2) (c :: bs) [] l hcolumn hhyphen (List.forall_mem_nil _)
  have hopen := @openAt_of_head? (c + 2) (c :: bs) (by rintro _ ⟨⟩; omega) .blockMappingStart
  rw [List.nil_append] at hself
  rw [hself]
  simp [Line.fetch, Line.item, Line.keyColumn, Line.hyphenate, Line.tokens, closeTo_append h,
    openAt_self, hopen]

theorem fetchLines_append (bs : List Nat) (ls ms : List Line) :
    fetchLines bs (ls ++ ms) = ((fetchLines (fetchLines bs ls).1 ms).1,
      (fetchLines bs ls).2 ++ (fetchLines (fetchLines bs ls).1 ms).2) := by
  induction ls generalizing bs with
  | nil => rfl
  | cons l ls ih =>
    rw [List.cons_append, fetchLines, fetchLines, ih, List.append_assoc]

/-- From an open block and those inside it, lines are fetched as tokens, up to the ends of the
blocks that they leave open inside. -/
def FetchedAs (c : Nat) (bs inner : List Nat) (ls : List Line) (us : List Token) : Prop :=
  ∃ inner' ts, (∀ b ∈ inner', c < b) ∧ fetchLines (inner ++ c :: bs) ls = (inner' ++ c :: bs, ts) ∧
    ts ++ List.replicate inner'.length .blockEnd = us

theorem fetchedAs_nil (h : ∀ b ∈ inner, c < b) :
    FetchedAs c bs inner [] (List.replicate inner.length .blockEnd) :=
  ⟨inner, [], h, rfl, rfl⟩

theorem FetchedAs.append (hls : FetchedAs c bs inner ls us)
    (hms : ∀ inner', (∀ b ∈ inner', c < b) →
      FetchedAs c bs inner' ms (List.replicate inner'.length .blockEnd ++ ws)) :
    FetchedAs c bs inner (ls ++ ms) (us ++ ws) := by
  obtain ⟨inner', ts, hinner', hfetch, rfl⟩ := hls
  obtain ⟨inner'', ts', hinner'', hfetch', hts'⟩ := hms inner' hinner'
  refine ⟨inner'', ts ++ ts', hinner'', ?_, ?_⟩
  · rw [fetchLines_append, hfetch, hfetch']
  · rw [List.append_assoc, hts', List.append_assoc]

theorem FetchedAs.cons (hfetch : l.fetch (inner ++ c :: bs) = (c :: bs, us))
    (h : FetchedAs c bs [] ls ws) : FetchedAs c bs inner (l :: ls) (us ++ ws) := by
  obtain ⟨inner', ts, hinner', hls, rfl⟩ := h
  rw [List.nil_append] at hls
  refine ⟨inner', us ++ ts, hinner', ?_, List.append_assoc _ _ _⟩
  rw [fetchLines, hfetch, hls]

/-- A block that begins with its first line is ended by what follows. -/
theorem FetchedAs.block {l' : Line} (hd : c < d)
    (hfetch : l'.fetch (inner ++ c :: bs) =
      ((l.fetch (d :: c :: bs)).1, us ++ (l.fetch (d :: c :: bs)).2))
    (h : FetchedAs d (c :: bs) [] (l :: ls) ws) :
    FetchedAs c bs inner (l' :: ls) (us ++ ws ++ [.blockEnd]) := by
  obtain ⟨inner', ts, hinner', hls, rfl⟩ := h
  have hblocks : (fetchLines (l.fetch (d :: c :: bs)).1 ls).1 = inner' ++ d :: c :: bs :=
    congrArg Prod.fst hls
  have htokens : (l.fetch (d :: c :: bs)).2 ++ (fetchLines (l.fetch (d :: c :: bs)).1 ls).2 = ts :=
    congrArg Prod.snd hls
  refine ⟨inner' ++ [d], us ++ ts, ?_, ?_, ?_⟩
  · exact List.forall_mem_append.2
      ⟨fun b hb => Nat.lt_trans hd (hinner' b hb), List.forall_mem_singleton.2 hd⟩
  · rw [fetchLines, hfetch, hblocks, List.append_assoc, htokens, ← List.append_cons]
  · rw [List.length_append, List.length_singleton, List.replicate_succ', List.append_assoc,
      List.append_assoc, List.append_assoc]

/-- The lines of a collection behind a key, from those of what it holds. -/
theorem Laid.fetched_value {v : Node} (h : Laid (valueColumn c v) v (l :: ls))
    (hinner : ∀ bs, FetchedAs (valueColumn c v) bs [] (l :: ls) (innerTokens v)) :
    FetchedAs c bs [] (l :: ls) (blockTokens v) := by
  cases v with
  | mapping a es =>
    have hstart : l.fetch ([] ++ c :: bs) = ((l.fetch ((c + 2) :: c :: bs)).1,
        [.blockMappingStart] ++ (l.fetch ((c + 2) :: c :: bs)).2) :=
      fetch_start h.column_eq h.hyphen_eq (by rintro _ ⟨⟩; omega)
    have hentries : FetchedAs (c + 2) (c :: bs) [] (l :: ls) (entryTokens es) := hinner _
    exact FetchedAs.block (by omega) hstart hentries
  | sequence a vs => exact hinner bs
  | scalar | reference => nomatch h

/-- The lines of a node are fetched as its tokens. -/
theorem Laid.fetched {v : Node} (h : Laid c v ls) (bs : List Nat) {inner : List Nat}
    (hinner : ∀ b ∈ inner, c < b) :
    FetchedAs c bs inner ls (List.replicate inner.length .blockEnd ++ innerTokens v) := by
  induction h generalizing bs inner with
  | noEntries | noItems => simpa [innerTokens, entryTokens, itemTokens] using fetchedAs_nil hinner
  | @word c k w es ls hk hw _ ih =>
    have hmore := FetchedAs.cons
      (fetch_append (l := ⟨c, false, k, some w⟩) rfl rfl hinner) (ih bs (List.forall_mem_nil _))
    simpa [innerTokens, entryTokens, Line.tokens, Node.plain, blockTokens] using hmore
  | @nest c k v es l ls ms hk value _ ihv ih =>
    have hvalue : FetchedAs c bs [] (l :: ls) (blockTokens v) :=
      value.fetched_value fun bs => ihv bs (List.forall_mem_nil _)
    have hentry := FetchedAs.cons (fetch_append (l := ⟨c, false, k, none⟩) rfl rfl hinner) hvalue
    have hmore := hentry.append fun _ hinner' => ih bs hinner'
    simpa [innerTokens, entryTokens, Line.tokens, Node.plain, blockTokens] using hmore
  | @item c es vs l ls ms first _ ihv ih =>
    have hblock := FetchedAs.block (Nat.lt_add_of_pos_right Nat.two_pos)
      (fetch_hyphenate first.column_eq first.hyphen_eq hinner)
      (ihv (c :: bs) (List.forall_mem_nil _))
    have hmore := hblock.append fun _ hinner' => ih bs hinner'
    simpa [innerTokens, itemTokens, blockTokens] using hmore

end Fetching

/-- The tokens of the text of a mapping are its tokens. -/
theorem tokens?_text {es : List (Node × Node)} {l : Line} {ls : List Line}
    (h : Laid 0 (.mapping none es) (l :: ls)) :
    tokens? (Node.text (.mapping none es)) = some (blockTokens (.mapping none es)) := by
  have hchained : Chained (l :: ls) := by
    have hend := (@Laid.chained_append _ _ _ h [] (Nat.le_refl _) trivial).2
    rwa [List.append_nil] at hend
  have htext := h.text_eq h.column_eq
  have hallowed : ∀ c ∈ (Node.text (.mapping none es)).toList, isAllowed c = true :=
    isAllowed_of_isWritten (htext ▸ isWritten_linesText h.isWords)
  obtain ⟨inner, ts, -, hfetch, hts⟩ := h.fetched [] (List.forall_mem_nil _)
  have hstart : fetchLines [] (l :: ls) =
      ((fetchLines [0] (l :: ls)).1, .blockMappingStart :: (fetchLines [0] (l :: ls)).2) := by
    rw [fetchLines, fetch_start h.column_eq h.hyphen_eq (by rintro _ ⟨⟩)]
    rfl
  rw [List.nil_append] at hfetch
  have hinner : ts ++ List.replicate inner.length .blockEnd = entryTokens es := hts
  rw [tokens?_lines h.isWords hchained h.column_eq htext hallowed, hstart, hfetch,
    List.length_append, List.length_singleton, List.replicate_succ', List.cons_append,
    ← List.append_assoc, hinner]
  rfl

end Yaml

end EquivalentCircuit
