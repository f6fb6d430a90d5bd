import EquivalentCircuit.Proofs.YamlBlock

/-! Block texts as lists of lines. What a line adds to the tokens depends on the columns of the open
blocks only, so the tokens of a text are computed from its lines. -/

namespace EquivalentCircuit

namespace Yaml

/-- A key, perhaps with the hyphen of an item before it and a word behind it. -/
structure Line where
  column : Nat
  hyphen : Bool
  key : String
  value : Option String

def valueChars : Option String → List Char
  | none => []
  | some v => ' ' :: v.toList

namespace Line

def keyColumn (l : Line) : Nat := if l.hyphen then l.column + 2 else l.column

def chars (l : Line) : List Char :=
  (if l.hyphen then ['-', ' '] else []) ++ (l.key.toList ++ ':' :: valueChars l.value)

structure IsWords (l : Line) : Prop where
  key : IsWord l.key
  value : ∀ v ∈ l.value, IsWord v

def item (l : Line) (bs : List Nat) : List Nat × List Token :=
  if l.hyphen then
    ((Lex.openAt l.column .blockSequenceStart bs).1,
      (Lex.openAt l.column .blockSequenceStart bs).2 ++ [.blockEntry])
  else (bs, [])

def tokens (l : Line) : List Token :=
  [.key, .scalar .plain l.key, .value] ++ (l.value.map (.scalar .plain)).toList

/-- The open blocks behind a line and its tokens. -/
def fetch (l : Line) (bs : List Nat) : List Nat × List Token :=
  let closed := Lex.closeTo l.column bs
  let item := l.item closed.1
  let opened := Lex.openAt l.keyColumn .blockMappingStart item.1
  (opened.1, closed.2 ++ item.2 ++ opened.2 ++ l.tokens)

end Line

open Yaml.Lex

variable {l : Line} {bs : List Nat} {ts : List Token} {text : List Char}

theorem head_item (h : ∀ b ∈ bs.head?, b ≤ l.column) :
    ∀ b ∈ (l.item bs).1.head?, b ≤ l.keyColumn := by
  rw [Line.item, Line.keyColumn]
  split
  · rw [head_openAt h]
    rintro _ ⟨⟩
    omega
  · exact h

theorem leads_item (hbs : ∀ b ∈ bs.head?, b ≤ l.column) (htext : Stops text) :
    Leads (Ready true bs ts l.column ((if l.hyphen then ['-', ' '] else []) ++ text))
      (Ready true (l.item bs).1 (ts ++ (l.item bs).2) l.keyColumn text) := by
  rw [Line.item, Line.keyColumn]
  split
  · rw [← List.append_assoc]
    exact leads_hyphen hbs htext
  · rw [List.append_nil]
    exact Leads.of_imp fun _ h => h

/-- A key and its value, up to the next line, which must not be indented further than the key of a
word. -/
theorem leads_entry {key : String} (hkey : IsWord key) {value : Option String}
    (hvalue : ∀ v ∈ value, IsWord v) {column indent : Nat} (hbs : ∀ b ∈ bs.head?, b ≤ column)
    (hindent : value.isSome = true → indent ≤ column) (htext : Stops text) :
    Leads (Ready true bs ts column
        (key.toList ++ ':' :: (valueChars value ++ (newLine indent ++ text))))
      (Ready true (openAt column .blockMappingStart bs).1
        (ts ++ (openAt column .blockMappingStart bs).2 ++ [.key, .scalar .plain key, .value] ++
          (value.map (Token.scalar .plain)).toList) indent text) := by
  cases value with
  | none =>
    rw [Option.map_none, Option.toList_none, List.append_nil]
    exact (leads_blockKey hkey hbs rfl).trans (leads_newLine htext indent)
  | some v =>
    obtain ⟨bs', hbs'⟩ : ∃ bs', (openAt column .blockMappingStart bs).1 = column :: bs' :=
      List.head?_eq_some_iff.1 (head_openAt hbs _)
    have hentry := @leads_blockKey bs ts column (' ' :: (v.toList ++ (newLine indent ++ text))) key
      hkey hbs rfl
    rw [hbs'] at hentry ⊢
    exact hentry.trans (leads_blockValue (hvalue v rfl) htext
      (Nat.le_succ_of_le (Nat.le_add_right _ _)) (hindent rfl))

/-- A line is fetched as its tokens up to the next one. -/
theorem leads_line (hl : l.IsWords) {indent : Nat}
    (hindent : l.value.isSome = true → indent ≤ l.keyColumn) (htext : Stops text) :
    Leads (Ready true bs ts l.column (l.chars ++ (newLine indent ++ text)))
      (Ready true (l.fetch bs).1 (ts ++ (l.fetch bs).2) indent text) := by
  have hclosed := head_closeTo l.column bs
  have hchars : l.chars ++ (newLine indent ++ text) = (if l.hyphen then ['-', ' '] else []) ++
      (l.key.toList ++ ':' :: (valueChars l.value ++ (newLine indent ++ text))) := by
    simp [Line.chars]
  have htokens : ts ++ (l.fetch bs).2 = ts ++ (closeTo l.column bs).2 ++
      (l.item (closeTo l.column bs).1).2 ++
      (openAt l.keyColumn .blockMappingStart (l.item (closeTo l.column bs).1).1).2 ++
        [.key, .scalar .plain l.key, .value] ++ (l.value.map (.scalar .plain)).toList := by
    simp [Line.fetch, Line.tokens]
  have hstops : Stops ((if l.hyphen then ['-', ' '] else []) ++
      (l.key.toList ++ ':' :: (valueChars l.value ++ (newLine indent ++ text)))) := by
    split
    · rintro _ ⟨⟩
      decide
    · exact stops_word hl.key _
  rw [hchars, htokens]
  exact ((leads_close hstops).trans (leads_item hclosed (stops_word hl.key _))).trans
    (leads_entry hl.key hl.value (head_item hclosed) hindent htext)

/-! Texts. -/

/-- The column of the first line, and of the end of a text. -/
def firstColumn : List Line → Nat
  | [] => 0
  | l :: _ => l.column

def linesText : List Line → List Char
  | [] => []
  | l :: ls => l.chars ++ (newLine (firstColumn ls) ++ linesText ls)

def fetchLines (bs : List Nat) : List Line → List Nat × List Token
  | [] => (bs, [])
  | l :: ls =>
    ((fetchLines (l.fetch bs).1 ls).1, (l.fetch bs).2 ++ (fetchLines (l.fetch bs).1 ls).2)

/-- No line is indented further than the key of the word before it. -/
def Chained : List Line → Prop
  | [] => True
  | l :: ls => (l.value.isSome = true → firstColumn ls ≤ l.keyColumn) ∧ Chained ls

theorem stops_linesText {ls : List Line} (h : ∀ l ∈ ls, l.IsWords) : Stops (linesText ls) := by
  cases ls with
  | nil => rintro _ ⟨⟩
  | cons l ls =>
    rw [linesText, Line.chars]
    split
    · rintro _ ⟨⟩
      decide
    · rw [List.nil_append, List.append_assoc]
      exact stops_word (h l List.mem_cons_self).key _

theorem leads_lines {ls : List Line} (h : ∀ l ∈ ls, l.IsWords) (hchained : Chained ls) :
    Leads (Ready true bs ts (firstColumn ls) (linesText ls))
      (Ready true (fetchLines bs ls).1 (ts ++ (fetchLines bs ls).2) 0 []) := by
  induction ls generalizing bs ts with
  | nil =>
    rw [fetchLines, List.append_nil]
    exact Leads.of_imp fun _ h => h
  | cons l ls ih =>
    obtain ⟨hl, hls⟩ := List.forall_mem_cons.1 h
    rw [fetchLines, ← List.append_assoc]
    exact (leads_line hl hchained.1 (stops_linesText hls)).trans (ih hls hchained.2)

/-- The tokens of a text are those of its lines and the ends of the blocks still open. -/
theorem tokens?_lines {ls : List Line} (h : ∀ l ∈ ls, l.IsWords) (hchained : Chained ls)
    (hfirst : firstColumn ls = 0) {text : String} (htext : text.toList = linesText ls)
    (hallowed : ∀ c ∈ text.toList, isAllowed c = true) :
    tokens? text = some ((fetchLines [] ls).2 ++
      List.replicate (fetchLines [] ls).1.length .blockEnd) := by
  have hstart : Ready true [] [] (firstColumn ls) (linesText ls) (Lexer.start text.toList) :=
    ⟨rfl, rfl, rfl, hfirst.symm, htext, rfl⟩
  obtain ⟨s, hfetch, hs⟩ := leads_lines h hchained _ hstart
  rw [tokens?_eq hallowed hfetch hs.text hs.inFlow hs.optional, hs.tokens, hs.blocks,
    List.nil_append]

end Yaml

end EquivalentCircuit
