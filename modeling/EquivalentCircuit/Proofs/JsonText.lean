import EquivalentCircuit.Json.Printer
import EquivalentCircuit.Json.Reader
import EquivalentCircuit.Proofs.Scanning
import EquivalentCircuit.Proofs.Words

/-! JSON texts of plain values, which are flags and words in records and lists. Written with a line
for each member and read again, such a value comes back. -/

namespace EquivalentCircuit

/-- Flags and words in records and lists that are not empty, at most so deep. -/
inductive Json.Plain : Nat → Json → Prop
  | bool {n : Nat} (b : Bool) : Plain n (.bool b)
  | text {n : Nat} {s : String} (h : IsWord s) : Plain n (.text s)
  | list {n : Nat} {j : Json} {items : List Json} (h : ∀ i ∈ j :: items, Plain n i) :
    Plain (n + 1) (.list (j :: items))
  | record {n : Nat} {m : String × Json} {ms : List (String × Json)}
    (hnames : ∀ e ∈ m :: ms, IsWord e.1) (hvalues : ∀ e ∈ m :: ms, Plain n e.2) :
    Plain (n + 1) (.record (m :: ms))

namespace Json

theorem skipBlank_append {s t : List Char} (hs : ∀ c ∈ s, isBlank c = true)
    (ht : ∀ c ∈ t.head?, isBlank c = false) : skipBlank (s ++ t) = some ((), t) :=
  bind_of_eq (Scan.takeWhile_append hs ht)

theorem skipBlank_lineAt (depth : Nat) {t : List Char} (ht : ∀ c ∈ t.head?, isBlank c = false) :
    skipBlank (lineAt depth ++ t) = some ((), t) := by
  refine skipBlank_append (fun d hd => ?_) ht
  rcases List.mem_cons.1 hd with rfl | hd
  · rfl
  · rw [List.eq_of_mem_replicate hd]
    rfl

theorem length_lineAt (depth : Nat) : (lineAt depth).length = 2 * depth + 1 := by
  rw [lineAt, List.length_cons, List.length_replicate]

/-! Words between quotes. -/

theorem quoted_word {s : String} (h : IsWord s) : quoted s = '"' :: (s.toList ++ ['"']) := by
  have hescape : s.toList.flatMap escape = s.toList := by
    rw [List.flatMap_congr (h.all (by decide : ∀ c ∈ wordChars, escape c = [c]))]
    exact List.flatMap_singleton' _
  rw [quoted, hescape]

theorem scanParts_append {cs : List Char} (h : ∀ c ∈ cs, c ∈ wordChars) (parts : List TextPart)
    (t : List Char) :
    scanParts parts (cs ++ '"' :: t) = some (parts.reverse ++ cs.map .plain, t) := by
  induction cs generalizing parts with
  | nil =>
    rw [List.nil_append, scanParts, List.map_nil, List.append_nil]
  | cons c cs ih =>
    obtain ⟨hc, hcs⟩ := List.forall_mem_cons.1 h
    have hplain : ∀ c ∈ wordChars, c ≠ '"' ∧ c ≠ '\\' ∧ ' ' ≤ c := by decide
    obtain ⟨hquote, hslash, hprint⟩ := hplain c hc
    rw [List.cons_append, scanParts, if_pos hprint, ih hcs, List.reverse_cons, List.map_cons,
      List.append_assoc]
    · rfl
    · exact hquote
    · rintro a b c d s rfl
      exact absurd rfl hslash
    · rintro d s rfl
      exact absurd rfl hslash

theorem joinParts_plain {cs : List Char} :
    joinParts (cs.map .plain) = some (cs.map Char.toUInt8) := by
  induction cs with
  | nil => rfl
  | cons c cs ih => rw [List.map_cons, joinParts, ih]; rfl

theorem scanText_word {s : String} (h : IsWord s) (t : List Char) :
    scanText (s.toList ++ '"' :: t) = some (some s, t) := by
  refine (bind_of_eq (scanParts_append h.chars [] t)).trans ?_
  rw [List.reverse_nil, List.nil_append, joinParts_plain, Option.bind_some,
    fromUTF8?_ascii h.isAscii, String.ofList_toList]
  rfl

/-! Values, by induction on what they are made of. Every value takes at least one character, so
twice the length of its text is fuel enough. -/

/-- Written before any text, the value is read and the text is left. -/
structure PrintsBack (n : Nat) (j : Json) : Prop where
  begins : ∀ indent tail, ∀ c ∈ (prettyOnto indent j tail).head?, isBlank c = false ∧ ']' ≠ c
  longer : ∀ indent tail, tail.length < (prettyOnto indent j tail).length
  reads : ∀ indent depth fuel tail, depth + n ≤ deepest →
    2 * (prettyOnto indent j tail).length ≤ fuel + 2 * tail.length →
      scanValue fuel depth (prettyOnto indent j tail) = some (j, tail)

/-- The text of the value is a character that tells its kind, and a body that ends in what is
written after it. -/
theorem PrintsBack.of_body {n : Nat} {j : Json} (c : Char) (body : Nat → List Char → List Char)
    (hc : isBlank c = false ∧ ']' ≠ c)
    (htext : ∀ indent tail, prettyOnto indent j tail = c :: body indent tail)
    (hlength : ∀ indent tail, tail.length ≤ (body indent tail).length)
    (hreads : ∀ indent depth fuel tail, depth + n ≤ deepest →
      2 * (body indent tail).length < fuel + 2 * tail.length →
        scanValue (fuel + 1) depth (c :: body indent tail) = some (j, tail)) :
    PrintsBack n j := by
  refine ⟨fun indent tail d hd => ?_, fun indent tail => ?_,
    fun indent depth fuel tail hdepth hfuel => ?_⟩
  · rw [htext] at hd
    cases hd
    exact hc
  · rw [htext, List.length_cons]
    exact Nat.lt_succ_of_le (hlength indent tail)
  · have hle := hlength indent tail
    rw [htext, List.length_cons] at hfuel
    obtain ⟨fuel, rfl⟩ : ∃ f, fuel = f + 1 := ⟨fuel - 1, by omega⟩
    rw [htext]
    exact hreads indent depth fuel tail hdepth (by omega)

theorem PrintsBack.of_chars {n : Nat} {j : Json} (c : Char) (cs : List Char)
    (hc : isBlank c = false ∧ ']' ≠ c)
    (htext : ∀ indent tail, prettyOnto indent j tail = c :: (cs ++ tail))
    (hreads : ∀ fuel depth tail, scanValue (fuel + 1) depth (c :: (cs ++ tail)) = some (j, tail)) :
    PrintsBack n j := by
  refine .of_body c (fun _ tail => cs ++ tail) hc htext (fun _ tail => ?_)
    fun _ depth fuel tail _ _ => hreads fuel depth tail
  rw [List.length_append]
  exact Nat.le_add_left ..

theorem printsBack_bool (n : Nat) (b : Bool) : PrintsBack n (bool b) := by
  cases b with
  | true => exact .of_chars 't' "rue".toList ⟨rfl, by decide⟩ (fun _ _ => rfl) fun _ _ _ => rfl
  | false => exact .of_chars 'f' "alse".toList ⟨rfl, by decide⟩ (fun _ _ => rfl) fun _ _ _ => rfl

theorem printsBack_text (n : Nat) {s : String} (h : IsWord s) : PrintsBack n (text s) := by
  refine .of_chars '"' (s.toList ++ ['"']) ⟨rfl, by decide⟩ (fun indent tail => ?_)
    fun fuel depth tail => ?_
  · change quoted s ++ tail = _
    rw [quoted_word h]
    rfl
  · rw [List.append_assoc]
    change (scanText (s.toList ++ '"' :: tail)).bind _ = _
    rw [scanText_word h tail]
    rfl

section Collections

variable {n : Nat}

theorem le_length_prettyItems {items : List Json} (h : ∀ i ∈ items, PrintsBack n i) (indent : Nat)
    (tail : List Char) : tail.length ≤ (prettyItems indent items tail).length := by
  induction items with
  | nil => exact Nat.le_refl _
  | cons j items ih =>
    obtain ⟨hj, hitems⟩ := List.forall_mem_cons.1 h
    have hlonger := hj.longer indent (prettyItems indent items tail)
    have hrest := ih hitems
    rw [prettyItems, List.length_cons, List.length_append]
    omega

theorem le_length_prettyMembers {ms : List (String × Json)} (h : ∀ e ∈ ms, PrintsBack n e.2)
    (indent : Nat) (tail : List Char) :
    tail.length ≤ (prettyMembers indent ms tail).length := by
  induction ms with
  | nil => exact Nat.le_refl _
  | cons e ms ih =>
    obtain ⟨he, hms⟩ := List.forall_mem_cons.1 h
    have hlonger := he.longer indent (prettyMembers indent ms tail)
    have hrest := ih hms
    simp only [prettyMembers, List.length_cons, List.length_append]
    omega

def moreItems (fuel depth : Nat) (j : Json) : Scan (List Json) := do
  skipBlank
  if ← Scan.charIf ']' then return [j]
  Scan.char ','
  skipBlank
  return j :: (← scanItems fuel depth)

theorem scanItems_succ (fuel depth : Nat) :
    scanItems (fuel + 1) depth = scanValue fuel depth >>= moreItems fuel depth :=
  rfl

theorem moreItems_close (fuel depth outer : Nat) (j : Json) (tail : List Char) :
    moreItems fuel depth j (lineAt outer ++ ']' :: tail) = some ([j], tail) :=
  bind_of_eq (skipBlank_lineAt outer (by rintro _ ⟨⟩; rfl))

theorem moreItems_comma (fuel depth : Nat) (j : Json) (t : List Char) :
    moreItems fuel depth j (',' :: t) =
      (skipBlank >>= fun _ => scanItems fuel depth >>= fun js => pure (j :: js)) t :=
  rfl

theorem scanItems_pretty {j : Json} {items : List Json} (h : ∀ i ∈ j :: items, PrintsBack n i)
    (indent outer : Nat) {depth fuel : Nat} {tail close : List Char} (hdepth : depth + n ≤ deepest)
    (hclose : close = lineAt outer ++ ']' :: tail)
    (hfuel : 2 * (prettyOnto indent j (prettyItems indent items close)).length ≤
      fuel + 2 * tail.length) :
    scanItems fuel depth (prettyOnto indent j (prettyItems indent items close)) =
      some (j :: items, tail) := by
  have hlast : tail.length + 2 ≤ close.length := by
    rw [hclose, List.length_append, length_lineAt, List.length_cons]
    omega
  induction items generalizing j fuel with
  | nil =>
    obtain ⟨hj, -⟩ := List.forall_mem_cons.1 h
    have hlonger := hj.longer indent close
    rw [prettyItems] at hfuel ⊢
    obtain ⟨fuel, rfl⟩ : ∃ f, fuel = f + 1 := ⟨fuel - 1, by omega⟩
    rw [scanItems_succ, bind_of_eq (hj.reads indent depth fuel _ hdepth (by omega)), hclose,
      moreItems_close]
  | cons i items ih =>
    obtain ⟨hj, hitems⟩ := List.forall_mem_cons.1 h
    obtain ⟨hi, hrest⟩ := List.forall_mem_cons.1 hitems
    have hlonger := hj.longer indent (prettyItems indent (i :: items) close)
    have hleast := le_length_prettyItems hrest indent close
    have hbegins := fun c hc => (hi.begins indent (prettyItems indent items close) c hc).1
    have hlength := hi.longer indent (prettyItems indent items close)
    have hcomma : (prettyItems indent (i :: items) close).length =
        2 * indent + 2 + (prettyOnto indent i (prettyItems indent items close)).length := by
      rw [prettyItems, List.length_cons, List.length_append, length_lineAt]
      omega
    obtain ⟨fuel, rfl⟩ : ∃ f, fuel = f + 1 := ⟨fuel - 1, by omega⟩
    rw [scanItems_succ, bind_of_eq (hj.reads indent depth fuel _ hdepth (by omega)),
      prettyItems, moreItems_comma, bind_of_eq (skipBlank_lineAt indent hbegins),
      bind_of_eq (ih hitems (by omega))]
    rfl

def moreMembers (fuel depth : Nat) (m : Option String × Json) :
    Scan (List (Option String × Json)) := do
  skipBlank
  if ← Scan.charIf '\x7d' then return [m]
  Scan.char ','
  skipBlank
  return m :: (← scanMembers fuel depth)

theorem moreMembers_close (fuel depth outer : Nat) (m : Option String × Json) (tail : List Char) :
    moreMembers fuel depth m (lineAt outer ++ '\x7d' :: tail) = some ([m], tail) :=
  bind_of_eq (skipBlank_lineAt outer (by rintro _ ⟨⟩; rfl))

theorem moreMembers_comma (fuel depth : Nat) (m : Option String × Json) (t : List Char) :
    moreMembers fuel depth m (',' :: t) =
      (skipBlank >>= fun _ => scanMembers fuel depth >>= fun ms => pure (m :: ms)) t :=
  rfl

/-- A member is read up to what follows its value. -/
theorem scanMembers_succ {name : String} {j : Json} {fuel depth : Nat} {t rest : List Char}
    (hname : IsWord name) (hbegins : ∀ c ∈ t.head?, isBlank c = false)
    (h : scanValue fuel depth t = some (j, rest)) :
    scanMembers (fuel + 1) depth (quoted name ++ ':' :: ' ' :: t) =
      moreMembers fuel depth (some name, j) rest := by
  have hstep : ∀ t, scanMembers (fuel + 1) depth ('"' :: t) = (scanText >>= fun name => do
      skipBlank
      Scan.char ':'
      skipBlank
      let j ← scanValue fuel depth
      moreMembers fuel depth (name, j)) t := fun _ => rfl
  have hcolon : ∀ t (scan : Scan (List (Option String × Json))),
      (skipBlank >>= fun _ => Scan.char ':' >>= fun _ => skipBlank >>= fun _ => scan)
        (':' :: t) = (skipBlank >>= fun _ => scan) t := fun _ _ => rfl
  rw [quoted_word hname, List.cons_append, List.append_assoc, hstep, List.singleton_append,
    bind_of_eq (scanText_word hname _), hcolon]
  have hblank : skipBlank (' ' :: t) = some ((), t) :=
    skipBlank_append (s := [' ']) (by decide) hbegins
  rw [bind_of_eq hblank, bind_of_eq h]

theorem scanMembers_pretty {name : String} {j : Json} {ms : List (String × Json)}
    (hnames : ∀ e ∈ (name, j) :: ms, IsWord e.1) (h : ∀ e ∈ (name, j) :: ms, PrintsBack n e.2)
    (indent outer : Nat) {depth fuel : Nat} {tail close : List Char} (hdepth : depth + n ≤ deepest)
    (hclose : close = lineAt outer ++ '\x7d' :: tail)
    (hfuel : 2 * (prettyOnto indent j (prettyMembers indent ms close)).length ≤
      fuel + 2 * tail.length) :
    scanMembers fuel depth
      (quoted name ++ ':' :: ' ' :: prettyOnto indent j (prettyMembers indent ms close)) =
        some (((name, j) :: ms).map fun e => (some e.1, e.2), tail) := by
  have hlast : tail.length + 2 ≤ close.length := by
    rw [hclose, List.length_append, length_lineAt, List.length_cons]
    omega
  induction ms generalizing name j fuel with
  | nil =>
    have hname : IsWord name := hnames _ List.mem_cons_self
    have hj : PrintsBack n j := h _ List.mem_cons_self
    have hlonger := hj.longer indent close
    rw [prettyMembers] at hfuel ⊢
    obtain ⟨fuel, rfl⟩ : ∃ f, fuel = f + 1 := ⟨fuel - 1, by omega⟩
    have hbegins := fun c hc => (hj.begins indent close c hc).1
    have hread := hj.reads indent depth fuel close hdepth (by omega)
    rw [scanMembers_succ hname hbegins hread, hclose, moreMembers_close]
    rfl
  | cons e ms ih =>
    obtain ⟨name', i⟩ := e
    obtain ⟨hname, hnames'⟩ := List.forall_mem_cons.1 hnames
    obtain ⟨hj, hms⟩ := List.forall_mem_cons.1 h
    obtain ⟨hi, hrest⟩ := List.forall_mem_cons.1 hms
    dsimp only at hname hj hi
    have hlonger := hj.longer indent (prettyMembers indent ((name', i) :: ms) close)
    have hleast := le_length_prettyMembers hrest indent close
    have hlength := hi.longer indent (prettyMembers indent ms close)
    have hcomma : 2 * indent + 2 + (prettyOnto indent i (prettyMembers indent ms close)).length ≤
        (prettyMembers indent ((name', i) :: ms) close).length := by
      simp only [prettyMembers, List.length_cons, List.length_append, length_lineAt]
      omega
    obtain ⟨fuel, rfl⟩ : ∃ f, fuel = f + 1 := ⟨fuel - 1, by omega⟩
    have hbegins := fun c hc =>
      (hj.begins indent (prettyMembers indent ((name', i) :: ms) close) c hc).1
    have hread := hj.reads indent depth fuel (prettyMembers indent ((name', i) :: ms) close) hdepth
      (by omega)
    have hquote : ∀ t, ∀ c ∈ (quoted name' ++ t).head?, isBlank c = false := by
      rintro t _ ⟨⟩
      rfl
    rw [scanMembers_succ hname hbegins hread, prettyMembers, moreMembers_comma,
      List.append_assoc, bind_of_eq (skipBlank_lineAt indent (hquote _)),
      bind_of_eq (ih hnames' hms (by omega))]
    rfl

theorem printsBack_list {j : Json} {items : List Json} (h : ∀ i ∈ j :: items, PrintsBack n i) :
    PrintsBack (n + 1) (list (j :: items)) := by
  obtain ⟨hj, hitems⟩ := List.forall_mem_cons.1 h
  have hlonger : ∀ indent tail, tail.length + 2 ≤ (prettyOnto (indent + 1) j
      (prettyItems (indent + 1) items (lineAt indent ++ ']' :: tail))).length := by
    intro indent tail
    have hlt := Nat.lt_of_le_of_lt
      (le_length_prettyItems hitems (indent + 1) (lineAt indent ++ ']' :: tail))
      (hj.longer (indent + 1) _)
    rw [List.length_append, List.length_cons] at hlt
    omega
  refine .of_body '[' (fun indent tail => lineAt (indent + 1) ++ prettyOnto (indent + 1) j
    (prettyItems (indent + 1) items (lineAt indent ++ ']' :: tail))) ⟨rfl, by decide⟩
    (fun _ _ => rfl) (fun indent tail => ?_) fun indent depth fuel tail hdepth hfuel => ?_
  · have hinner := hlonger indent tail
    rw [List.length_append]
    omega
  · have hinner := hlonger indent tail
    rw [List.length_append] at hfuel
    have hstep : ∀ t, scanValue (fuel + 1) depth ('[' :: t) = (skipBlank >>= fun _ => do
        if ← Scan.charIf ']' then return limited (depth + 1) (list [])
        return limited (depth + 1) (list (← scanItems fuel (depth + 1)))) t := fun _ => rfl
    have hbegins := hj.begins (indent + 1)
      (prettyItems (indent + 1) items (lineAt indent ++ ']' :: tail))
    have hread := @scanItems_pretty n j items h (indent + 1) indent (depth + 1) fuel tail _
      (by omega) rfl (by omega)
    rw [hstep, bind_of_eq (skipBlank_lineAt (indent + 1) fun c hc => (hbegins c hc).1),
      bind_of_eq (Scan.charIf_of_head? fun c hc => (hbegins c hc).2)]
    change (scanItems fuel (depth + 1) >>= fun js => pure (limited (depth + 1) (list js))) _ = _
    rw [bind_of_eq hread, limited, if_pos (by omega)]
    rfl

theorem ofMembers_named (ms : List (String × Json)) :
    ofMembers (ms.map fun e => (some e.1, e.2)) = record ms := by
  have hnames : (ms.map fun e => (some e.1, e.2)).mapM
      (fun e : Option String × Json => e.1.map (·, e.2)) = some ms := by
    induction ms with
    | nil => rfl
    | cons m ms ih => rw [List.map_cons, List.mapM_cons, ih]; rfl
  rw [ofMembers]
  generalize hmembers : (List.mapM _ _ : Option (List (String × Json))) = o
  obtain rfl : o = some ms := hmembers.symm.trans hnames
  rfl

theorem printsBack_record {m : String × Json} {ms : List (String × Json)}
    (hnames : ∀ e ∈ m :: ms, IsWord e.1) (h : ∀ e ∈ m :: ms, PrintsBack n e.2) :
    PrintsBack (n + 1) (record (m :: ms)) := by
  obtain ⟨name, j⟩ := m
  obtain ⟨hj, hms⟩ := List.forall_mem_cons.1 h
  dsimp only at hj
  have hlonger : ∀ indent tail, tail.length + 2 ≤ (prettyOnto (indent + 1) j
      (prettyMembers (indent + 1) ms (lineAt indent ++ '\x7d' :: tail))).length := by
    intro indent tail
    have hlt := Nat.lt_of_le_of_lt
      (le_length_prettyMembers hms (indent + 1) (lineAt indent ++ '\x7d' :: tail))
      (hj.longer (indent + 1) _)
    rw [List.length_append, List.length_cons] at hlt
    omega
  refine .of_body '\x7b' (fun indent tail => lineAt (indent + 1) ++ (quoted name ++ ':' :: ' ' ::
    prettyOnto (indent + 1) j (prettyMembers (indent + 1) ms (lineAt indent ++ '\x7d' :: tail))))
    ⟨rfl, by decide⟩ (fun indent tail => ?_) (fun indent tail => ?_)
    fun indent depth fuel tail hdepth hfuel => ?_
  · rw [prettyOnto, List.append_assoc]
  · have hinner := hlonger indent tail
    simp only [List.length_cons, List.length_append]
    omega
  · have hinner := hlonger indent tail
    simp only [List.length_cons, List.length_append] at hfuel
    have hstep : ∀ t, scanValue (fuel + 1) depth ('\x7b' :: t) = (skipBlank >>= fun _ => do
        if ← Scan.charIf '\x7d' then return limited (depth + 1) (record [])
        return limited (depth + 1) (ofMembers (← scanMembers fuel (depth + 1)))) t := fun _ => rfl
    have hquote : ∀ t, ∀ c ∈ (quoted name ++ t).head?, isBlank c = false ∧ '\x7d' ≠ c := by
      rintro t _ ⟨⟩
      exact ⟨rfl, by decide⟩
    have hread := @scanMembers_pretty n name j ms hnames h (indent + 1) indent (depth + 1) fuel
      tail _ (by omega) rfl (by omega)
    rw [hstep, bind_of_eq (skipBlank_lineAt (indent + 1) fun c hc => (hquote _ c hc).1),
      bind_of_eq (Scan.charIf_of_head? fun c hc => (hquote _ c hc).2)]
    change (scanMembers fuel (depth + 1) >>= fun ms =>
      pure (limited (depth + 1) (ofMembers ms))) _ = _
    rw [bind_of_eq hread, ofMembers_named, limited, if_pos (by omega)]
    rfl

end Collections

theorem Plain.printsBack {n : Nat} {j : Json} (h : Plain n j) : PrintsBack n j := by
  induction h with
  | bool b => exact printsBack_bool _ b
  | text h => exact printsBack_text _ h
  | list _ ih => exact printsBack_list ih
  | record hnames _ ih => exact printsBack_record hnames ih

/-! The characters of a text. -/

theorem written_quoted {s : String} (h : IsWord s) : IsWritten (quoted s) := by
  rw [quoted_word h, isWritten_cons, isWritten_append]
  exact ⟨by decide, h.isWritten, by decide⟩

theorem written_lineAt (depth : Nat) : IsWritten (lineAt depth) := by
  intro c hc
  rcases List.mem_cons.1 hc with rfl | hc
  · decide
  · rw [List.eq_of_mem_replicate hc]
    decide

/-- A value adds characters of texts only. -/
def Writes (j : Json) : Prop :=
  ∀ indent tail, IsWritten tail → IsWritten (prettyOnto indent j tail)

theorem written_prettyItems {items : List Json} (h : ∀ i ∈ items, Writes i) (indent : Nat)
    {tail : List Char} (ht : IsWritten tail) : IsWritten (prettyItems indent items tail) := by
  induction items with
  | nil => exact ht
  | cons j items ih =>
    obtain ⟨hj, hitems⟩ := List.forall_mem_cons.1 h
    rw [prettyItems, isWritten_cons, isWritten_append]
    exact ⟨by decide, written_lineAt indent, hj indent _ (ih hitems)⟩

theorem written_prettyMembers {ms : List (String × Json)} (hnames : ∀ e ∈ ms, IsWord e.1)
    (h : ∀ e ∈ ms, Writes e.2) (indent : Nat) {tail : List Char} (ht : IsWritten tail) :
    IsWritten (prettyMembers indent ms tail) := by
  induction ms with
  | nil => exact ht
  | cons m ms ih =>
    obtain ⟨hname, hnames⟩ := List.forall_mem_cons.1 hnames
    obtain ⟨hj, hms⟩ := List.forall_mem_cons.1 h
    simp only [prettyMembers, isWritten_cons, isWritten_append]
    exact ⟨by decide, ⟨written_lineAt indent, written_quoted hname⟩, by decide, by decide,
      hj indent _ (ih hnames hms)⟩

theorem Plain.writes {n : Nat} {j : Json} (h : Plain n j) : Writes j := by
  induction h with
  | bool b =>
    intro indent tail ht
    cases b <;> exact isWritten_append.2 ⟨by decide, ht⟩
  | text h =>
    intro indent tail ht
    exact isWritten_append.2 ⟨written_quoted h, ht⟩
  | list _ ih =>
    obtain ⟨hj, hitems⟩ := List.forall_mem_cons.1 ih
    intro indent tail ht
    have hclose : IsWritten (lineAt indent ++ ']' :: tail) :=
      isWritten_append.2 ⟨written_lineAt indent, isWritten_cons.2 ⟨by decide, ht⟩⟩
    rw [prettyOnto, isWritten_cons, isWritten_append]
    exact ⟨by decide, written_lineAt _, hj _ _ (written_prettyItems hitems _ hclose)⟩
  | record hnames _ ih =>
    obtain ⟨hname, hnames⟩ := List.forall_mem_cons.1 hnames
    obtain ⟨hj, hms⟩ := List.forall_mem_cons.1 ih
    intro indent tail ht
    have hclose : IsWritten (lineAt indent ++ '\x7d' :: tail) :=
      isWritten_append.2 ⟨written_lineAt indent, isWritten_cons.2 ⟨by decide, ht⟩⟩
    simp only [prettyOnto, isWritten_cons, isWritten_append]
    exact ⟨by decide, ⟨written_lineAt _, written_quoted hname⟩, by decide, by decide,
      hj _ _ (written_prettyMembers hnames hms _ hclose)⟩

theorem Plain.isWritten {n : Nat} {j : Json} (h : Plain n j) : IsWritten j.pretty.toList := by
  rw [pretty, String.toList_ofList]
  exact h.writes 0 [] (List.forall_mem_nil _)

/-- A plain value is read back from its text. -/
theorem Plain.read?_pretty {n : Nat} {j : Json} (h : Plain n j) (hn : n ≤ deepest) :
    read? j.pretty = some j := by
  have hchars : (j.pretty.toUTF8.toList.map fun x => Char.ofNat x.toNat) = prettyOnto 0 j [] := by
    rw [map_ofNat_toUTF8 h.isWritten.isAscii, pretty, String.toList_ofList]
  have hback := h.printsBack
  have hread := hback.reads 0 0 (2 * (prettyOnto 0 j []).length + 2) [] (by omega)
    (by rw [List.length_nil]; omega)
  have hblank : skipBlank (prettyOnto 0 j []) = some ((), prettyOnto 0 j []) :=
    skipBlank_append (List.forall_mem_nil _) fun c hc => (hback.begins 0 [] c hc).1
  rw [read?, readBytes?, hchars]
  change Scan.whole (scanDocument _) (prettyOnto 0 j []) = _
  rw [Scan.whole, scanDocument, bind_of_eq hblank, bind_of_eq hread]
  rfl

end Json

end EquivalentCircuit
