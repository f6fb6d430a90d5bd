import EquivalentCircuit.Proofs.Scanning
import EquivalentCircuit.Proofs.Words
import EquivalentCircuit.Yaml.Lexer

/-! The words of YAML texts and what lies between them. Of the place where a reader stops only the
text that is left and the column are told, and for words between quotes how far it has come. -/

namespace EquivalentCircuit

namespace Yaml

/-- The characters that begin and end tokens of written texts. -/
def visibleChars : List Char := wordChars ++ "\"\x7b\x7d[]:,-".toList

theorem visible_of_word {c : Char} (hc : c ∈ wordChars) : c ∈ visibleChars :=
  List.mem_append_left _ hc

/-- Neither blanks nor a comment come next. -/
def Stops (t : List Char) : Prop := ∀ c ∈ t.head?, c ∈ visibleChars

theorem Stops.head? {t : List Char} (h : Stops t) {P : Char → Prop} (hP : ∀ c ∈ visibleChars, P c) :
    ∀ c ∈ t.head?, P c :=
  fun c hc => hP c (h c hc)

theorem stops_word {w : String} (hw : IsWord w) (t : List Char) : Stops (w.toList ++ t) := by
  obtain ⟨c, cs, hw', hc⟩ := hw.exists_cons
  rw [hw']
  rintro _ ⟨⟩
  exact visible_of_word hc

def IsGap (gap : List Char) : Prop := ∀ c ∈ gap, c = ' ' ∨ c = '\n'

instance (gap : List Char) : Decidable (IsGap gap) :=
  inferInstanceAs (Decidable (∀ c ∈ gap, c = ' ' ∨ c = '\n'))

def gapColumn : List Char → Nat → Nat
  | [], column => column
  | c :: gap, column => gapColumn gap (if c = '\n' then 0 else column + 1)

namespace Cursor

theorem advance_succ (n : Nat) {c : Char} {t : List Char} {here : Cursor}
    (h : here.text = c :: t) : here.advance (n + 1) = (here.advance 1).advance n := by
  obtain ⟨text, index, line, column⟩ := here
  dsimp only at h
  subst h
  simp only [advance, byteLength, List.take_succ_cons, List.drop_succ_cons, List.take_zero,
    List.drop_zero, List.map_cons, List.map_nil, List.foldr_cons, List.foldr_nil]
  congr 1 <;> omega

theorem advance_append (w : List Char) {t : List Char} {here : Cursor} (h : here.text = w ++ t) :
    (here.advance w.length).text = t := by
  change here.text.drop w.length = t
  rw [h, List.drop_left]

theorem index_advance_le (n : Nat) (here : Cursor) :
    (here.advance n).index ≤ here.index + 4 * n := by
  have hbytes : ∀ cs : List Char, byteLength cs ≤ 4 * cs.length := by
    intro cs
    induction cs with
    | nil => exact Nat.le_refl _
    | cons c cs ih =>
      have hc := c.utf8Size_le_four
      rw [List.length_cons]
      change c.utf8Size + byteLength cs ≤ _
      omega
  have htake := hbytes (here.text.take n)
  have hlength := List.length_take_le n here.text
  change here.index + byteLength (here.text.take n) ≤ _
  omega

variable {p : Char → Bool} {here : Cursor}

theorem skipWhile_of_head? (h : ∀ c ∈ here.text.head?, p c = false) : here.skipWhile p = here := by
  have hnone : here.text.takeWhile p = [] := by
    cases htext : here.text with
    | nil => rfl
    | cons c t => exact List.takeWhile_cons_of_neg (ne_true_of_eq_false (h c (by rw [htext]; rfl)))
  rw [skipWhile, hnone]
  rfl

theorem skipWhile_cons {c : Char} {t : List Char} (h : here.text = c :: t) (hc : p c = true) :
    here.skipWhile p = (here.advance 1).skipWhile p := by
  have hnext : (here.advance 1).text = t := advance_append [c] h
  rw [skipWhile, skipWhile, hnext, h, List.takeWhile_cons_of_pos hc, List.length_cons,
    advance_succ _ h]

end Cursor

/-! Between tokens. -/

namespace Lex

def skipLine (s : Lexer) : Cursor :=
  let here :=
    if s.cursor.column = 0 && s.cursor.text.head? = some '\ufeff' then s.cursor.advance 1
    else s.cursor
  let here := here.skipWhile fun c => c = ' ' || (c = '\t' && (s.inFlow || !s.keyAllowed))
  if here.text.head? = some '#' then here.skipWhile fun c => !isBreak c else here

theorem skipToToken_succ (fuel : Nat) (s : Lexer) :
    skipToToken (fuel + 1) s =
      if (skipLine s).text.head?.any isBreak then
        skipToToken fuel { s with
          cursor := (skipLine s).skipBreak, keyAllowed := s.keyAllowed || !s.inFlow }
      else some ((), { s with cursor := skipLine s }) := by
  rw [skipToToken]
  change (if (skipLine s).text.head?.any isBreak then _ else _ : Lex Unit) s = _
  split <;> rfl

theorem skipLine_of_head? {s : Lexer}
    (h : ∀ c ∈ s.cursor.text.head?, c ≠ '\ufeff' ∧ c ≠ ' ' ∧ c ≠ '\t' ∧ c ≠ '#') :
    skipLine s = s.cursor := by
  have hmark : ¬ (s.cursor.column = 0 && s.cursor.text.head? = some '\ufeff') = true := by
    rw [Bool.and_eq_true, decide_eq_true_eq, decide_eq_true_eq]
    exact fun heq => (h _ heq.2).1 rfl
  have hcomment : s.cursor.text.head? ≠ some '#' := fun heq => (h _ heq).2.2.2 rfl
  have hblank : s.cursor.skipWhile
      (fun c => c = ' ' || (c = '\t' && (s.inFlow || !s.keyAllowed))) = s.cursor :=
    Cursor.skipWhile_of_head? fun c hc => by simp [h c hc]
  simp only [skipLine, if_neg hmark, hblank, if_neg hcomment]

theorem skipLine_space {s : Lexer} {t : List Char} (h : s.cursor.text = ' ' :: t) :
    skipLine s = skipLine { s with cursor := s.cursor.advance 1 } := by
  have hmark : ¬ (s.cursor.column = 0 && s.cursor.text.head? = some '\ufeff') = true := by
    rw [h, Bool.and_eq_true, decide_eq_true_eq, decide_eq_true_eq]
    exact fun heq => absurd (Option.some.inj heq.2) (by decide)
  have hcolumn : ¬ ((s.cursor.advance 1).column = 0 &&
      (s.cursor.advance 1).text.head? = some '\ufeff') = true := by
    rw [Bool.and_eq_true, decide_eq_true_eq]
    exact fun heq => Nat.succ_ne_zero _ heq.1
  rw [skipLine, skipLine]
  simp only [if_neg hmark, if_neg hcolumn]
  rw [Cursor.skipWhile_cons h rfl]
  rfl

theorem skipToToken_of_stops {s : Lexer} (h : Stops s.cursor.text) (fuel : Nat) :
    skipToToken (fuel + 1) s = some ((), s) := by
  have hbreak : s.cursor.text.head?.any isBreak = false := by
    rw [Option.any_eq_false]
    exact h.head? (by decide)
  rw [skipToToken_succ, skipLine_of_head? (h.head? (by decide)), hbreak]
  rfl

theorem skipToToken_space {s : Lexer} {t : List Char} (h : s.cursor.text = ' ' :: t) (fuel : Nat) :
    skipToToken (fuel + 1) s = skipToToken (fuel + 1) { s with cursor := s.cursor.advance 1 } := by
  rw [skipToToken_succ, skipToToken_succ, skipLine_space h]
  rfl

theorem skipToToken_newline {s : Lexer} {t : List Char} (h : s.cursor.text = '\n' :: t)
    (fuel : Nat) :
    skipToToken (fuel + 1) s = skipToToken fuel { s with
      cursor := s.cursor.skipBreak, keyAllowed := s.keyAllowed || !s.inFlow } := by
  have hline : skipLine s = s.cursor :=
    skipLine_of_head? (by rw [h]; rintro _ ⟨⟩; decide)
  have hbreak : s.cursor.text.head?.any isBreak = true := by rw [h]; rfl
  rw [skipToToken_succ, hline, if_pos hbreak]

end Lex

namespace Cursor

variable {here : Cursor} {t : List Char}

theorem text_skipBreak (h : here.text = '\n' :: t) :
    here.skipBreak.text = t ∧ here.skipBreak.column = 0 := by
  obtain ⟨text, index, line, column⟩ := here
  dsimp only at h
  subst h
  exact ⟨rfl, rfl⟩

end Cursor

variable {gap rest : List Char}

theorem isGap_cons {c : Char} : IsGap (c :: gap) ↔ (c = ' ' ∨ c = '\n') ∧ IsGap gap :=
  List.forall_mem_cons

/-- A gap is skipped; after a line break outside of flow collections a key may begin. -/
theorem Lex.skipToToken_gap (hgap : IsGap gap) (hrest : Stops rest) {s : Lexer}
    (h : s.cursor.text = gap ++ rest) :
    ∃ here, here.text = rest ∧ here.column = gapColumn gap s.cursor.column ∧
      ∀ fuel, gap.length < fuel → skipToToken fuel s = some ((), { s with
        cursor := here, keyAllowed := s.keyAllowed || (gap.contains '\n' && !s.inFlow) }) := by
  induction gap generalizing s with
  | nil =>
    refine ⟨s.cursor, h, rfl, fun fuel hfuel => ?_⟩
    obtain ⟨fuel, rfl⟩ : ∃ f, fuel = f + 1 := ⟨fuel - 1, by omega⟩
    rw [skipToToken_of_stops (h ▸ hrest), List.contains_nil, Bool.false_and, Bool.or_false]
  | cons c gap ih =>
    obtain ⟨hc, hmore⟩ := isGap_cons.1 hgap
    rcases hc with rfl | rfl
    · have htext : (s.cursor.advance 1).text = gap ++ rest := Cursor.advance_append [' '] h
      obtain ⟨here, hhere, hcolumn, hskip⟩ :=
        @ih hmore { s with cursor := s.cursor.advance 1 } htext
      refine ⟨here, hhere, hcolumn, fun fuel hfuel => ?_⟩
      obtain ⟨fuel, rfl⟩ : ∃ f, fuel = f + 1 := ⟨fuel - 1, by omega⟩
      rw [skipToToken_space h, hskip _ (Nat.lt_of_succ_lt hfuel)]
      rfl
    · obtain ⟨htext, hzero⟩ := Cursor.text_skipBreak h
      obtain ⟨here, hhere, hcolumn, hskip⟩ := @ih hmore { s with
        cursor := s.cursor.skipBreak, keyAllowed := s.keyAllowed || !s.inFlow } htext
      refine ⟨here, hhere, ?_, fun fuel hfuel => ?_⟩
      · rw [hcolumn, gapColumn, if_pos rfl]
        exact congrArg _ hzero
      · have hallowed : (s.keyAllowed || !s.inFlow || (gap.contains '\n' && !s.inFlow)) =
            (s.keyAllowed || (('\n' :: gap).contains '\n' && !s.inFlow)) := by
          rw [List.contains_cons, beq_self_eq_true, Bool.true_or, Bool.true_and]
          cases s.keyAllowed <;> cases s.inFlow <;> simp
        obtain ⟨fuel, rfl⟩ : ∃ f, fuel = f + 1 := ⟨fuel - 1, by omega⟩
        rw [skipToToken_newline h, hskip _ (Nat.lt_of_succ_lt_succ hfuel), ← hallowed]
        rfl

/-! Inside texts. -/

theorem scanGap_space (indent : Option Nat) (g : Gap) {s : Cursor} {t : List Char}
    (h : s.text = ' ' :: t) (fuel : Nat) :
    scanGap indent g (fuel + 1) s = scanGap indent (g.addSpace ' ') fuel (s.advance 1) := by
  have hpeek : Read.peek s = some (some ' ', s) := congrArg (fun t => some (List.head? t, s)) h
  have hrequire : Read.require (!(g.broken && decide (' ' = '\t') && indent.any (s.column < ·))) s =
      some ((), s) :=
    if_pos (by simp)
  rw [scanGap, bind_of_eq hpeek]
  change (Read.require (!(g.broken && decide (' ' = '\t') && indent.any (s.column < ·))) >>=
    fun _ => Read.skip >>= fun _ => scanGap indent (g.addSpace ' ') fuel) s = _
  rw [bind_of_eq hrequire]
  rfl

theorem scanGap_newline (indent : Option Nat) (g : Gap) {s : Cursor} {t : List Char}
    (h : s.text = '\n' :: t) (fuel : Nat) :
    scanGap indent g (fuel + 1) s = scanGap indent (g.addBreak '\n') fuel s.skipBreak := by
  have hpeek : Read.peek s = some (some '\n', s) := congrArg (fun t => some (List.head? t, s)) h
  have hbreak : Read.lineBreak s = some ('\n', s.skipBreak) := by
    rw [Read.lineBreak, bind_of_eq hpeek]
    rfl
  rw [scanGap, bind_of_eq hpeek]
  change (Read.lineBreak >>= fun c => scanGap indent (g.addBreak c) fuel) s = _
  rw [bind_of_eq hbreak]

theorem scanGap_of_stops (indent : Option Nat) (g : Gap) {s : Cursor} (h : Stops s.text)
    (fuel : Nat) : scanGap indent g (fuel + 1) s = some (g, s) := by
  have hpeek : Read.peek s = some (s.text.head?, s) := rfl
  rw [scanGap, bind_of_eq hpeek]
  cases hhead : s.text.head? with
  | none => rfl
  | some c =>
    have hc := (by decide : ∀ c ∈ visibleChars, isBlank c = false ∧ isBreak c = false) c
      (h c hhead)
    simp only [hc.1, hc.2]
    rfl

theorem Gap.broken_addSpace (g : Gap) (c : Char) : (g.addSpace c).broken = g.broken := by
  rw [addSpace]
  split <;> rfl

theorem Gap.broken_addBreak (g : Gap) (c : Char) : (g.addBreak c).broken = true := by
  rw [addBreak]
  split
  · assumption
  · rfl

theorem scanGap_gap (hgap : IsGap gap) (hrest : Stops rest) (indent : Option Nat) {g : Gap}
    {s : Cursor} (h : s.text = gap ++ rest) :
    ∃ g' here, here.text = rest ∧ here.column = gapColumn gap s.column ∧
      g'.broken = (g.broken || gap.contains '\n') ∧
        ∀ fuel, gap.length < fuel → scanGap indent g fuel s = some (g', here) := by
  induction gap generalizing s g with
  | nil =>
    refine ⟨g, s, h, rfl, (Bool.or_false _).symm, fun fuel hfuel => ?_⟩
    obtain ⟨fuel, rfl⟩ : ∃ f, fuel = f + 1 := ⟨fuel - 1, by omega⟩
    exact scanGap_of_stops indent g (h ▸ hrest) fuel
  | cons c gap ih =>
    obtain ⟨hc, hmore⟩ := isGap_cons.1 hgap
    rcases hc with rfl | rfl
    · have htext : (s.advance 1).text = gap ++ rest := Cursor.advance_append [' '] h
      obtain ⟨g', here, hhere, hcolumn, hbroken, hscan⟩ :=
        @ih hmore (g.addSpace ' ') (s.advance 1) htext
      refine ⟨g', here, hhere, hcolumn, ?_, fun fuel hfuel => ?_⟩
      · rw [hbroken, g.broken_addSpace]
        rfl
      · obtain ⟨fuel, rfl⟩ : ∃ f, fuel = f + 1 := ⟨fuel - 1, by omega⟩
        rw [scanGap_space indent g h, hscan _ (Nat.lt_of_succ_lt_succ hfuel)]
    · obtain ⟨htext, hzero⟩ := Cursor.text_skipBreak h
      obtain ⟨g', here, hhere, hcolumn, hbroken, hscan⟩ :=
        @ih hmore (g.addBreak '\n') s.skipBreak htext
      refine ⟨g', here, hhere, ?_, ?_, fun fuel hfuel => ?_⟩
      · rw [hcolumn, gapColumn, if_pos rfl, hzero]
      · rw [hbroken, g.broken_addBreak, Bool.true_or, List.contains_cons, beq_self_eq_true,
          Bool.true_or, Bool.or_true]
      · obtain ⟨fuel, rfl⟩ : ∃ f, fuel = f + 1 := ⟨fuel - 1, by omega⟩
        rw [scanGap_newline indent g h, hscan _ (Nat.lt_of_succ_lt_succ hfuel)]

/-! Plain words. -/

theorem scanRun_append {cs : List Char} (h : ∀ c ∈ cs, c ∈ wordChars) {flow : Bool} {t : List Char}
    (ht : scanRun flow t = some []) : scanRun flow (cs ++ t) = some cs := by
  induction cs with
  | nil => exact ht
  | cons c cs ih =>
    obtain ⟨hc, hcs⟩ := List.forall_mem_cons.1 h
    have hplain : ∀ c ∈ wordChars, isBlank c = false ∧ isBreak c = false ∧ c ≠ ':' ∧
        isFlowIndicator c = false := by decide
    obtain ⟨hblank, hbreak, hcolon, hflow⟩ := hplain c hc
    rw [List.cons_append, scanRun, ih hcs]
    simp [hblank, hbreak, hcolon, hflow]

def afterRun (inFlow : Bool) (indent : Nat) (done : List Char) (fuel : Nat) :
    Read (List Char × Bool) := do
  match ← Read.peek with
  | none => return (done, false)
  | some c =>
    if !(isBlank c || isBreak c) then return (done, false)
    let gap ← scanGap (some indent) Gap.none (fuel + 1)
    if !inFlow && (← get).column < indent then return (done, gap.broken)
    scanPlain inFlow indent done gap fuel

theorem isDocumentMark_of_head? {t : List Char} (h : ∀ c ∈ t.head?, c ≠ '-' ∧ c ≠ '.') :
    isDocumentMark t = false := by
  rw [isDocumentMark]
  · rintro t rfl
    exact (h _ rfl).1 rfl
  · rintro t rfl
    exact (h _ rfl).2 rfl

theorem isDocumentMark_word {c : Char} (hc : c ∈ wordChars) (t : List Char) :
    isDocumentMark (c :: t) = false := by
  refine isDocumentMark_of_head? ?_
  rintro _ ⟨⟩
  exact (by decide : ∀ c ∈ wordChars, c ≠ '-' ∧ c ≠ '.') c hc

theorem atDocumentMark_of_text {s : Cursor} (h : isDocumentMark s.text = false) :
    s.atDocumentMark = false := by
  rw [Cursor.atDocumentMark, h, Bool.and_false]

theorem scanPlain_word {w : String} (hw : IsWord w) {flow : Bool} {t : List Char}
    (ht : scanRun flow t = some []) {s : Cursor} (h : s.text = w.toList ++ t) (indent fuel : Nat) :
    scanPlain flow indent [] Gap.none (fuel + 1) s =
      afterRun flow indent w.toList.reverse fuel (s.advance w.toList.length) := by
  obtain ⟨c, cs, hcs, hc⟩ := hw.exists_cons
  have hhead : s.text.head? = some c := by rw [h, hcs]; rfl
  have hmark : s.atDocumentMark = false := by
    refine atDocumentMark_of_text ?_
    rw [h, hcs]
    exact isDocumentMark_word hc _
  have hcomment : s.text.head? ≠ some '#' := by
    rw [hhead]
    exact fun heq => (by decide : ∀ c ∈ wordChars, c ≠ '#') c hc (Option.some.inj heq)
  have hrun : scanRun flow s.text = some w.toList := by
    rw [h, scanRun_append hw.chars ht]
  have hget : (get : Read Cursor) s = some (s, s) := rfl
  rw [scanPlain, bind_of_eq hget]
  simp only [hmark, hcomment, hrun, hcs]
  rfl

theorem scanPlain_of_run_nil {flow : Bool} {s : Cursor} (h : scanRun flow s.text = some [])
    (indent : Nat) (done : List Char) (g : Gap) (fuel : Nat) :
    scanPlain flow indent done g (fuel + 1) s = some ((done, g.broken), s) := by
  have hget : (get : Read Cursor) s = some (s, s) := rfl
  rw [scanPlain, bind_of_eq hget]
  simp only [h]
  split <;> rfl

/-- A plain word with its end right behind it. -/
theorem scanPlain_ended {w : String} (hw : IsWord w) {flow : Bool} {c : Char} {t : List Char}
    (ht : scanRun flow (c :: t) = some []) (hc : isBlank c = false ∧ isBreak c = false) {s : Cursor}
    (h : s.text = w.toList ++ c :: t) (indent fuel : Nat) :
    scanPlain flow indent [] Gap.none (fuel + 1) s =
      some ((w.toList.reverse, false), s.advance w.toList.length) := by
  have hpeek : Read.peek (s.advance w.toList.length) =
      some (some c, s.advance w.toList.length) :=
    congrArg (fun t => some (List.head? t, _)) (Cursor.advance_append _ h)
  rw [scanPlain_word hw ht h, afterRun, bind_of_eq hpeek]
  simp only [hc.1, hc.2]
  rfl

/-- A plain word before a gap. Where the gap leads to a lesser column or the text cannot go on, the
word has ended. -/
theorem scanPlain_gap {w : String} (hw : IsWord w) {flow : Bool} (hgap : IsGap gap) (hne : gap ≠ [])
    (hrest : Stops rest) {s : Cursor} (h : s.text = w.toList ++ (gap ++ rest)) {indent : Nat}
    (hend : flow = true ∧ scanRun true rest = some [] ∨
      flow = false ∧ gapColumn gap (s.column + w.toList.length) < indent) :
    ∃ here, here.text = rest ∧ here.column = gapColumn gap (s.column + w.toList.length) ∧
      ∀ fuel, gap.length ≤ fuel → scanPlain flow indent [] Gap.none (fuel + 1) s =
        some ((w.toList.reverse, gap.contains '\n'), here) := by
  obtain ⟨c, cs, rfl⟩ := List.exists_cons_of_ne_nil hne
  have hblank : (isBlank c || isBreak c) = true := by
    rcases hgap c List.mem_cons_self with rfl | rfl <;> rfl
  have hrun : scanRun flow (c :: cs ++ rest) = some [] := by
    rw [List.cons_append, scanRun, if_pos hblank]
  have htext : (s.advance w.toList.length).text = c :: cs ++ rest := Cursor.advance_append _ h
  have hpeek : Read.peek (s.advance w.toList.length) =
      some (some c, s.advance w.toList.length) :=
    congrArg (fun t => some (List.head? t, _)) htext
  obtain ⟨g, here, hhere, hcolumn, hbroken, hscan⟩ :=
    @scanGap_gap _ _ hgap hrest (some indent) Gap.none _ htext
  have hget : (get : Read Cursor) here = some (here, here) := rfl
  have hbreak : (c :: cs).contains '\n' = g.broken := hbroken.symm
  refine ⟨here, hhere, hcolumn, fun fuel hfuel => ?_⟩
  rw [scanPlain_word hw hrun h, afterRun, bind_of_eq hpeek]
  simp only [hblank]
  change (scanGap (some indent) Gap.none (fuel + 1) >>= _) (s.advance w.toList.length) = _
  rw [bind_of_eq (hscan _ (Nat.lt_succ_of_le hfuel)), bind_of_eq hget, hbreak]
  rcases hend with ⟨rfl, hstop⟩ | ⟨rfl, hless⟩
  · rw [List.length_cons] at hfuel
    obtain ⟨fuel, rfl⟩ : ∃ f, fuel = f + 1 := ⟨fuel - 1, by omega⟩
    exact scanPlain_of_run_nil (hhere ▸ hstop) _ _ _ _
  · have hleast : here.column < indent := by
      rw [hcolumn]
      exact hless
    rw [if_pos (by rw [Bool.not_false, Bool.true_and, decide_eq_true hleast])]
    rfl

/-! Words between quotes. -/

theorem scanQuotedRun_append {cs : List Char} (h : ∀ c ∈ cs, c ∈ wordChars) (done t : List Char)
    {s : Cursor} (hs : s.text = cs ++ '"' :: t) {fuel : Nat} (hfuel : cs.length < fuel) :
    scanQuotedRun false done fuel s = some ((cs.reverse ++ done, false), s.advance cs.length) := by
  induction cs generalizing s done fuel with
  | nil =>
    obtain ⟨fuel, rfl⟩ : ∃ f, fuel = f + 1 := ⟨fuel - 1, by omega⟩
    have hget : (get : Read Cursor) s = some (s, s) := rfl
    rw [scanQuotedRun, bind_of_eq hget, hs]
    rfl
  | cons c cs ih =>
    obtain ⟨fuel, rfl⟩ : ∃ f, fuel = f + 1 := ⟨fuel - 1, by omega⟩
    obtain ⟨hc, hcs⟩ := List.forall_mem_cons.1 h
    have hplain : ∀ c ∈ wordChars, isBlank c = false ∧ isBreak c = false ∧ c ≠ '"' ∧ c ≠ '\\' := by
      decide
    obtain ⟨hblank, hbreak, hquote, hslash⟩ := hplain c hc
    have hget : (get : Read Cursor) s = some (s, s) := rfl
    have htext : (s.advance 1).text = cs ++ '"' :: t := Cursor.advance_append [c] hs
    rw [scanQuotedRun, bind_of_eq hget, hs]
    simp only [List.cons_append, hblank, hbreak, hquote, hslash]
    change scanQuotedRun false (c :: done) fuel (s.advance 1) = _
    rw [ih hcs _ htext (Nat.lt_of_succ_lt_succ hfuel), List.length_cons,
      Cursor.advance_succ cs.length hs, List.reverse_cons, List.append_assoc]
    rfl

/-- A word after its opening quote, up to what follows the closing one. -/
theorem scanQuoted_word {w : String} (hw : IsWord w) {t : List Char} {s : Cursor}
    (h : s.text = w.toList ++ '"' :: t) (hcolumn : s.column ≠ 0) {fuel : Nat}
    (hfuel : w.toList.length < fuel) :
    scanQuoted false [] fuel s = some (w.toList, (s.advance w.toList.length).advance 1) := by
  obtain ⟨fuel, rfl⟩ : ∃ f, fuel = f + 1 := ⟨fuel - 1, by omega⟩
  have hget : (get : Read Cursor) s = some (s, s) := rfl
  have hmark : s.atDocumentMark = false := by
    rw [Cursor.atDocumentMark, decide_eq_false hcolumn, Bool.false_and]
  have hne : s.text.isEmpty = false := by
    rw [h, List.isEmpty_eq_false_iff]
    exact List.append_ne_nil_of_right_ne_nil _ (List.cons_ne_nil _ _)
  have hrequire : Read.require (!s.atDocumentMark && !s.text.isEmpty) s = some ((), s) :=
    if_pos (by rw [hmark, hne]; rfl)
  have hpeek : Read.peek (s.advance w.toList.length) =
      some (some '"', s.advance w.toList.length) :=
    congrArg (fun t => some (List.head? t, _)) (Cursor.advance_append _ h)
  rw [scanQuoted, bind_of_eq hget, bind_of_eq hrequire,
    bind_of_eq (scanQuotedRun_append hw.chars [] t h hfuel), List.append_nil]
  simp only []
  rw [bind_of_eq hpeek]
  change some (w.toList.reverse.reverse, _) = _
  rw [List.reverse_reverse]

end Yaml

end EquivalentCircuit
