import EquivalentCircuit.Proofs.Scanning
import EquivalentCircuit.Proofs.Words
import EquivalentCircuit.Toml.Printer
import EquivalentCircuit.Toml.Reader

/-! TOML texts of tables that hold flags and words. Each line that is written is read as one
statement, and an empty line as none, so the lines of a text are read one after the other. -/

namespace EquivalentCircuit

namespace Toml

/-- A flag or a word. -/
inductive Simple : Toml → Prop
  | bool (b : Bool) : Simple (.bool b)
  | text {s : String} (h : IsWord s) : Simple (.text s)

theorem skipBlank_of_head? {t : List Char} (ht : ∀ c ∈ t.head?, isBlank c = false) :
    skipBlank t = some ((), t) :=
  bind_of_eq (Scan.takeWhile_append (s := []) (List.forall_mem_nil _) ht)

theorem skipBlank_blank {t : List Char} (ht : ∀ c ∈ t.head?, isBlank c = false) :
    skipBlank (' ' :: t) = some ((), t) :=
  bind_of_eq (Scan.takeWhile_append (s := [' ']) (by decide) ht)

/-! Keys. -/

theorem scanSimpleKey_eq : scanSimpleKey = Scan.peek >>= fun first =>
    if first = some '"' then scanLineText '"'
    else if first = some '\'' then scanLineText '\''
    else Scan.takeWhile isBareKey >>= fun cs =>
      Scan.require (!cs.isEmpty) >>= fun _ => pure (String.ofList cs) := by
  refine congrArg (Scan.peek >>= ·) (funext fun first => ?_)
  split <;> simp_all

theorem scanSimpleKey_word {s : String} (h : IsWord s) {t : List Char}
    (ht : ∀ c ∈ t.head?, isBareKey c = false) : scanSimpleKey (s.toList ++ t) = some (s, t) := by
  have hbare : ∀ c ∈ s.toList, isBareKey c = true := h.all (by decide)
  obtain ⟨c, cs, hs, hc⟩ := h.exists_cons
  have hpeek : Scan.peek (s.toList ++ t) = some (some c, s.toList ++ t) := by
    rw [hs]
    rfl
  have hquote : some c ≠ some '"' ∧ some c ≠ some '\'' :=
    (by decide : ∀ c ∈ wordChars, some c ≠ some '"' ∧ some c ≠ some '\'') c hc
  have hne : (!s.toList.isEmpty) = true := by
    rw [hs]
    rfl
  rw [scanSimpleKey_eq, bind_of_eq hpeek, if_neg hquote.1, if_neg hquote.2,
    bind_of_eq (Scan.takeWhile_append hbare ht), hne]
  exact congrArg (fun s => some (s, t)) s.ofList_toList

theorem skipBlank_word {s : String} (h : IsWord s) (t : List Char) :
    skipBlank (s.toList ++ t) = some ((), s.toList ++ t) := by
  refine skipBlank_of_head? fun c hc => ?_
  obtain ⟨d, ds, hs, hd⟩ := h.exists_cons
  rw [hs] at hc
  cases hc
  exact (by decide : ∀ c ∈ wordChars, isBlank c = false) _ hd

/-- The dotted form of a path is read, with a blank behind it, up to what cannot go on with it. -/
theorem scanKeyParts_path {k : String} {path : List String} (h : ∀ s ∈ k :: path, IsWord s)
    {fuel : Nat} (hfuel : path.length < fuel) {rest t : List Char}
    (hbare : ∀ c ∈ rest.head?, isBareKey c = false) (hskip : skipBlank rest = some ((), t))
    (hdot : ∀ c ∈ t.head?, '.' ≠ c) :
    scanKeyParts fuel ((dottedPath (k :: path)).toList ++ rest) = some (k :: path, t) := by
  induction path generalizing k fuel with
  | nil =>
    obtain ⟨fuel, rfl⟩ : ∃ f, fuel = f + 1 := ⟨fuel - 1, by omega⟩
    have hk : IsWord k := h k List.mem_cons_self
    rw [dottedPath, String.intercalate_singleton, scanKeyParts,
      bind_of_eq (skipBlank_word hk rest), bind_of_eq (scanSimpleKey_word hk hbare),
      bind_of_eq hskip, bind_of_eq (Scan.charIf_of_head? hdot)]
    rfl
  | cons k' path ih =>
    obtain ⟨fuel, rfl⟩ : ∃ f, fuel = f + 1 := ⟨fuel - 1, by omega⟩
    obtain ⟨hk, hpath⟩ := List.forall_mem_cons.1 h
    have htext : (dottedPath (k :: k' :: path)).toList ++ rest =
        k.toList ++ '.' :: ((dottedPath (k' :: path)).toList ++ rest) := by
      rw [dottedPath, String.intercalate_cons_cons, String.toList_append, String.toList_append,
        List.append_assoc, List.append_assoc]
      rfl
    have hmore := ih hpath (Nat.lt_of_succ_lt_succ hfuel)
    rw [htext, scanKeyParts, bind_of_eq (skipBlank_word hk _),
      bind_of_eq (scanSimpleKey_word hk (by rintro _ ⟨⟩; rfl)),
      bind_of_eq (skipBlank_of_head? (by rintro _ ⟨⟩; rfl)),
      bind_of_eq (Scan.charIf_self _ _), if_pos rfl, bind_of_eq hmore]
    rfl

/-! Values. -/

theorem scanQuoted_append {cs : List Char} (h : ∀ c ∈ cs, c ∈ wordChars) (done t : List Char)
    {fuel : Nat} (hfuel : cs.length < fuel) :
    scanQuoted '"' done fuel (cs ++ '"' :: t) = some (done.reverse ++ cs, t) := by
  induction cs generalizing done fuel with
  | nil =>
    obtain ⟨fuel, rfl⟩ : ∃ f, fuel = f + 1 := ⟨fuel - 1, by omega⟩
    rw [List.append_nil]
    rfl
  | cons c cs ih =>
    obtain ⟨fuel, rfl⟩ : ∃ f, fuel = f + 1 := ⟨fuel - 1, by omega⟩
    obtain ⟨hc, hcs⟩ := List.forall_mem_cons.1 h
    have hplain : ∀ c ∈ wordChars, c ≠ '"' ∧ c ≠ '\\' ∧ isPrintable c = true := by decide
    obtain ⟨hquote, hslash, hprint⟩ := hplain c hc
    have hnext : Scan.next (c :: (cs ++ '"' :: t)) = some (c, cs ++ '"' :: t) := rfl
    have hrequire : Scan.require (isPrintable c) (cs ++ '"' :: t) = some ((), cs ++ '"' :: t) :=
      if_pos hprint
    rw [List.cons_append, scanQuoted, bind_of_eq hnext, if_neg hquote, if_neg (by simp [hslash]),
      bind_of_eq hrequire, ih hcs _ (Nat.lt_of_succ_lt_succ hfuel), List.reverse_cons,
      List.append_assoc]
    rfl

theorem scanLineText_word {s : String} (h : IsWord s) (t : List Char) :
    scanLineText '"' ('"' :: (s.toList ++ '"' :: t)) = some (s, t) := by
  have hrest : Scan.rest (s.toList ++ '"' :: t) =
      some (s.toList ++ '"' :: t, s.toList ++ '"' :: t) := rfl
  have hquoted := @scanQuoted_append _ h.chars [] t ((s.toList ++ '"' :: t).length + 1)
    (by rw [List.length_append]; omega)
  rw [scanLineText, bind_of_eq (Scan.char_self _ _), bind_of_eq hrest,
    bind_of_eq hquoted]
  exact congrArg (fun s => some (s, t)) s.ofList_toList

/-- A word between quotes; its first character tells it from a text in triple quotes. -/
theorem scanText_word {s : String} (h : IsWord s) (t : List Char) :
    scanText '"' ('"' :: (s.toList ++ '"' :: t)) = some (s, t) := by
  rw [← scanLineText_word h t]
  obtain ⟨c, cs, hs, hc⟩ := h.exists_cons
  have hquote : c ≠ '"' := (by decide : ∀ c ∈ wordChars, c ≠ '"') c hc
  obtain ⟨d, ds, hd⟩ : ∃ d ds, cs ++ '"' :: t = d :: ds :=
    List.exists_cons_of_ne_nil (List.append_ne_nil_of_right_ne_nil _ (List.cons_ne_nil _ _))
  rw [hs, List.cons_append, hd]
  change (if ['"', c, d].all (· = '"') then _ else scanLineText '"' : Scan String) _ = _
  rw [if_neg (by simp [hquote])]

theorem toList_quoted (s : String) :
    ("\"" ++ s ++ "\"").toList = '"' :: (s.toList ++ ['"']) := by
  rw [String.toList_append, String.toList_append]
  rfl

/-- A value as it is written on its line. -/
theorem scanValue_valueText {v : Toml} (h : Simple v) :
    ∃ s, valueText v = some s ∧ (∀ c ∈ s.toList.head?, isBlank c = false) ∧ s.toList ≠ [] ∧
      ∀ fuel depth t, scanValue (fuel + 1) depth (s.toList ++ '\n' :: t) = some (v, '\n' :: t) := by
  cases h with
  | bool b =>
    cases b with
    | true => exact ⟨"true", rfl, by rintro _ ⟨⟩; rfl, by decide, fun _ _ _ => rfl⟩
    | false => exact ⟨"false", rfl, by rintro _ ⟨⟩; rfl, by decide, fun _ _ _ => rfl⟩
  | @text s h =>
    refine ⟨"\"" ++ s ++ "\"", rfl, ?_, ?_, fun fuel depth t => ?_⟩
    · rw [toList_quoted]
      rintro _ ⟨⟩
      rfl
    · rw [toList_quoted]
      exact List.cons_ne_nil _ _
    · have hstep : ∀ t, scanValue (fuel + 1) depth ('"' :: t) =
          (scanText '"' >>= fun s => pure (text s)) ('"' :: t) := fun _ => rfl
      rw [toList_quoted, List.cons_append, List.append_assoc, hstep]
      exact bind_of_eq (scanText_word h _)

/-! Statements. -/

/-- The lines of a text before any others are read as the statements. -/
def Lists (lines : List String) (ss : List Statement) : Prop :=
  ∀ fuel n t, scanStatements (fuel + 1) (n + lines.length)
      (lines.flatMap (fun l => l.toList ++ ['\n']) ++ t) =
    (scanStatements (fuel + 1) n t).map fun r => (ss ++ r.1, r.2)

theorem Lists.nil : Lists [] [] := fun fuel n t => by
  rw [List.flatMap_nil, List.nil_append]
  exact Option.map_id'.symm

theorem Lists.append {l m : List String} {ss rs : List Statement} (hl : Lists l ss)
    (hm : Lists m rs) : Lists (l ++ m) (ss ++ rs) := by
  intro fuel n t
  rw [List.length_append, Nat.add_comm l.length, ← Nat.add_assoc, List.flatMap_append,
    List.append_assoc, hl, hm, Option.map_map]
  congr 1
  funext r
  exact congrArg (·, r.2) (List.append_assoc ..).symm

theorem lists_blank : Lists [""] [] := by
  intro fuel n t
  rw [List.flatMap_singleton]
  change scanStatements (fuel + 1) n t = _
  exact Option.map_id'.symm

def beginsStatement (c : Char) : Bool :=
  !isBlank c && c ≠ '#' && c ≠ '\n' && c ≠ '\r'

theorem scanStatements_succ {c : Char} (hc : beginsStatement c = true) (fuel n : Nat)
    (t : List Char) :
    scanStatements fuel (n + 1) (c :: t) = (scanStatement fuel >>= fun s =>
      scanStatements fuel n >>= fun ss => pure (s :: ss)) (c :: t) := by
  simp only [beginsStatement, Bool.and_eq_true, Bool.not_eq_true', decide_eq_true_eq] at hc
  obtain ⟨⟨⟨hblank, hmark⟩, hnewline⟩, hreturn⟩ := hc
  have hskip : skipBlank (c :: t) = some ((), c :: t) :=
    skipBlank_of_head? (by rintro _ ⟨⟩; exact hblank)
  have hpeek : Scan.peek (c :: t) = some (some c, c :: t) := rfl
  rw [scanStatements, bind_of_eq hskip, bind_of_eq hpeek]
  simp only []
  rw [if_neg (by simp [hmark, hnewline, hreturn])]

theorem lists_of_statement {line : String} {s : Statement} {c : Char} {cs : List Char}
    (hline : line.toList = c :: cs) (hc : beginsStatement c = true)
    (h : ∀ fuel t, scanStatement (fuel + 1) (line.toList ++ '\n' :: t) = some (s, t)) :
    Lists [line] [s] := by
  intro fuel n t
  rw [List.flatMap_singleton, List.append_assoc, List.singleton_append]
  have hread := h fuel t
  rw [hline, List.cons_append] at hread ⊢
  change scanStatements (fuel + 1) (n + 1) _ = _
  rw [scanStatements_succ hc, bind_of_eq hread]
  change (scanStatements (fuel + 1) n t).bind (fun r => some (s :: r.1, r.2)) = _
  cases scanStatements (fuel + 1) n t <;> rfl

def scanEntry (fuel : Nat) : Scan Statement := do
  let path ← scanKey
  Scan.char '='
  skipBlank
  let v ← scanValue fuel 0
  endLine
  return .entry path v

theorem scanStatement_of_ne {c : Char} (hc : c ≠ '[') (fuel : Nat) (t : List Char) :
    scanStatement fuel (c :: t) = scanEntry fuel (c :: t) := by
  have hrest : Scan.rest (c :: t) = some (c :: t, c :: t) := rfl
  rw [scanStatement, bind_of_eq hrest]
  refine congrFun ?_ (c :: t)
  split
  · rename_i heq
    exact absurd (List.cons.inj heq).1 hc
  · rename_i heq
    exact absurd (List.cons.inj heq).1 hc
  · rfl

theorem scanStatement_word {name : String} (h : IsWord name) (fuel : Nat) (t : List Char) :
    scanStatement fuel (name.toList ++ t) = scanEntry fuel (name.toList ++ t) := by
  obtain ⟨c, cs, hcs, hc⟩ := h.exists_cons
  rw [hcs]
  exact scanStatement_of_ne ((by decide : ∀ c ∈ wordChars, c ≠ '[') c hc) _ _

theorem scanKey_word {name : String} (h : IsWord name) {rest t : List Char}
    (hbare : ∀ c ∈ rest.head?, isBareKey c = false) (hskip : skipBlank rest = some ((), t))
    (hdot : ∀ c ∈ t.head?, '.' ≠ c) : scanKey (name.toList ++ rest) = some ([name], t) := by
  have hparts := @scanKeyParts_path name [] (by simpa using h) (depthLimit - 1) (by decide)
    rest t hbare hskip hdot
  rwa [dottedPath, String.intercalate_singleton] at hparts

theorem lists_entry {name : String} {v : Toml} (hname : IsWord name) (hv : Simple v) :
    Lists (entryLines [(name, v)]) [.entry [name] v] := by
  obtain ⟨s, hs, hblank, hne, hread⟩ := scanValue_valueText hv
  have hlines : entryLines [(name, v)] = [name ++ " = " ++ s] := by
    simp [entryLines, hs]
  have htext : (name ++ " = " ++ s).toList = name.toList ++ ' ' :: '=' :: ' ' :: s.toList := by
    rw [String.toList_append, String.toList_append, List.append_assoc]
    rfl
  obtain ⟨c, cs, hcs, hc⟩ := hname.exists_cons
  have hbegins := (by decide : ∀ c ∈ wordChars, beginsStatement c = true) c hc
  rw [hlines]
  refine lists_of_statement (htext.trans (congrArg (· ++ _) hcs)) hbegins fun fuel t => ?_
  have hkey : scanKey (name.toList ++ ' ' :: '=' :: ' ' :: (s.toList ++ '\n' :: t)) =
      some ([name], '=' :: ' ' :: (s.toList ++ '\n' :: t)) :=
    scanKey_word hname (by rintro _ ⟨⟩; rfl) (skipBlank_blank (by rintro _ ⟨⟩; rfl))
      (by rintro _ ⟨⟩; decide)
  have hvalue : skipBlank (' ' :: (s.toList ++ '\n' :: t)) = some ((), s.toList ++ '\n' :: t) := by
    obtain ⟨d, ds, hds⟩ := List.exists_cons_of_ne_nil hne
    rw [hds] at hblank ⊢
    exact skipBlank_blank (by rintro _ ⟨⟩; exact hblank d rfl)
  rw [htext, List.append_assoc, List.cons_append, List.cons_append, List.cons_append,
    scanStatement_word hname, scanEntry, bind_of_eq hkey, bind_of_eq (Scan.char_self _ _),
    bind_of_eq hvalue, bind_of_eq (hread fuel 0 t)]
  rfl

theorem lists_entries {ms : Members} (hnames : ∀ m ∈ ms, IsWord m.1) (h : ∀ m ∈ ms, Simple m.2) :
    Lists (entryLines ms) (ms.map fun m => .entry [m.1] m.2) := by
  induction ms with
  | nil => exact Lists.nil
  | cons m ms ih =>
    obtain ⟨hname, hnames⟩ := List.forall_mem_cons.1 hnames
    obtain ⟨hv, hms⟩ := List.forall_mem_cons.1 h
    have hlines : entryLines (m :: ms) = entryLines [m] ++ entryLines ms := by
      obtain ⟨s, hs, -⟩ := scanValue_valueText hv
      simp [entryLines, hs]
    rw [hlines]
    exact (lists_entry hname hv).append (ih hnames hms)

theorem scanKey_header {path : List String} (h : ∀ s ∈ path, IsWord s) (hne : path ≠ [])
    (hlength : path.length < depthLimit) (t : List Char) :
    scanKey ((dottedPath path).toList ++ ']' :: t) = some (path, ']' :: t) := by
  obtain ⟨k, ks, rfl⟩ := List.exists_cons_of_ne_nil hne
  exact scanKeyParts_path h (by rw [List.length_cons] at hlength; omega) (by rintro _ ⟨⟩; rfl)
    (skipBlank_of_head? (by rintro _ ⟨⟩; rfl)) (by rintro _ ⟨⟩; decide)

theorem dottedPath_starts {path : List String} (h : ∀ s ∈ path, IsWord s) (hne : path ≠ []) :
    ∃ c cs, (dottedPath path).toList = c :: cs ∧ c ∈ wordChars := by
  obtain ⟨k, ks, rfl⟩ := List.exists_cons_of_ne_nil hne
  obtain ⟨c, cs, hcs, hc⟩ := (h k List.mem_cons_self).exists_cons
  cases ks with
  | nil => exact ⟨c, cs, by rw [dottedPath, String.intercalate_singleton, hcs], hc⟩
  | cons k' ks =>
    refine ⟨c, cs ++ ('.' :: (dottedPath (k' :: ks)).toList), ?_, hc⟩
    rw [dottedPath, String.intercalate_cons_cons, String.toList_append, String.toList_append, hcs,
      List.append_assoc]
    rfl

def scanHeader : Scan Statement := do
  let path ← scanKey
  Scan.char ']'
  endLine
  return .table path

theorem scanStatement_bracket {c : Char} (hc : c ≠ '[') (fuel : Nat) (t : List Char) :
    scanStatement fuel ('[' :: c :: t) = scanHeader (c :: t) := by
  have hrest : Scan.rest ('[' :: c :: t) = some ('[' :: c :: t, '[' :: c :: t) := rfl
  rw [scanStatement, bind_of_eq hrest]
  change _ = (set (c :: t) >>= fun _ => scanHeader : Scan Statement) ('[' :: c :: t)
  refine congrFun ?_ ('[' :: c :: t)
  split
  · rename_i heq
    exact absurd (List.cons.inj (List.cons.inj heq).2).1 hc
  · rename_i heq
    rw [← (List.cons.inj heq).2]
    rfl
  · rename_i hnot
    exact absurd rfl (hnot _)

theorem lists_header {path : List String} (h : ∀ s ∈ path, IsWord s) (hne : path ≠ [])
    (hlength : path.length < depthLimit) :
    Lists ["", "[" ++ dottedPath path ++ "]"] [.table path] := by
  have htext : ("[" ++ dottedPath path ++ "]").toList =
      '[' :: ((dottedPath path).toList ++ [']']) := by
    rw [String.toList_append, String.toList_append]
    rfl
  refine lists_blank.append (lists_of_statement htext rfl fun fuel t => ?_)
  obtain ⟨c, cs, hcs, hc⟩ := dottedPath_starts h hne
  have hstart : ∀ s, scanStatement (fuel + 1) ('[' :: ((dottedPath path).toList ++ s)) =
      scanHeader ((dottedPath path).toList ++ s) := by
    rw [hcs]
    exact fun s => scanStatement_bracket ((by decide : ∀ c ∈ wordChars, c ≠ '[') c hc) _ _
  rw [htext, List.cons_append, List.append_assoc, hstart, List.singleton_append, scanHeader,
    bind_of_eq (scanKey_header h hne hlength _)]
  rfl

theorem lists_element {path : List String} (h : ∀ s ∈ path, IsWord s) (hne : path ≠ [])
    (hlength : path.length < depthLimit) :
    Lists ["", "[[" ++ dottedPath path ++ "]]"] [.element path] := by
  have htext : ("[[" ++ dottedPath path ++ "]]").toList =
      '[' :: '[' :: ((dottedPath path).toList ++ [']', ']']) := by
    rw [String.toList_append, String.toList_append]
    rfl
  refine lists_blank.append (lists_of_statement htext rfl fun fuel t => ?_)
  have hstart : ∀ s, scanStatement (fuel + 1) ('[' :: '[' :: s) =
      (scanKey >>= fun path => Scan.literal [']', ']'] >>= fun _ => endLine >>= fun _ =>
        pure (Statement.element path)) s := fun _ => rfl
  rw [htext, List.cons_append, List.cons_append, List.append_assoc, hstart, List.cons_append,
    bind_of_eq (scanKey_header h hne hlength _)]
  rfl

theorem length_le_flatMap (lines : List String) :
    lines.length ≤ (lines.flatMap fun l => l.toList ++ ['\n']).length := by
  induction lines with
  | nil => exact Nat.le_refl _
  | cons l lines ih =>
    rw [List.flatMap_cons, List.length_append, List.length_append, List.length_cons,
      List.length_singleton]
    omega

/-- A text of lines is read as its statements. -/
theorem Lists.read? {lines : List String} {ss : List Statement} (h : Lists lines ss)
    (hmark : ∀ c ∈ (lines.flatMap fun l => l.toList ++ ['\n']).head?, '\ufeff' ≠ c) :
    read? (String.join (lines.map (· ++ "\n"))) = ofStatements ss := by
  have hlength := length_le_flatMap lines
  have hlists := fun fuel n => h fuel n []
  rw [Toml.read?, toList_joinLines]
  simp only [List.append_nil] at hlists
  generalize (lines.flatMap fun l => l.toList ++ ['\n']) = text at *
  have hscan : scanDocument (2 * text.length + 2) text = some (ss, []) := by
    obtain ⟨n, hn⟩ : ∃ n, 2 * text.length + 2 = n + 1 + lines.length :=
      ⟨2 * text.length + 1 - lines.length, by omega⟩
    have hread := hlists (2 * text.length + 1) (n + 1)
    rw [← hn] at hread
    rw [scanDocument, bind_of_eq (Scan.charIf_of_head? hmark)]
    refine hread.trans ?_
    change some (ss ++ [], []) = _
    rw [List.append_nil]
  simp only [Scan.whole, hscan]
  rfl

/-! Texts that are not read. -/

theorem read?_of_refused {s : String} {c : Char} {t : List Char} (hs : s.toList = c :: t)
    (hc : beginsStatement c = true) (hmark : '\ufeff' ≠ c)
    (h : ∀ fuel, scanStatement fuel (c :: t) = none) : read? s = none := by
  have hdocument : scanDocument (2 * (c :: t).length + 2) (c :: t) = none := by
    rw [scanDocument, bind_of_eq (Scan.charIf_of_head? (by rintro _ ⟨⟩; exact hmark)),
      scanStatements_succ hc]
    exact bind_of_none (h _)
  rw [read?, hs]
  simp only [Scan.whole, hdocument]
  rfl

/-- A word is not followed by a colon. -/
theorem read?_colon {s name : String} (hname : IsWord name) {t : List Char}
    (hs : s.toList = name.toList ++ ':' :: t) : read? s = none := by
  obtain ⟨c, cs, hcs, hc⟩ := hname.exists_cons
  obtain ⟨hbegins, hmark⟩ := (by decide : ∀ c ∈ wordChars, beginsStatement c = true ∧ '\ufeff' ≠ c)
    c hc
  have hcons : name.toList ++ ':' :: t = c :: (cs ++ ':' :: t) := congrArg (· ++ ':' :: t) hcs
  refine read?_of_refused (hs.trans hcons) hbegins hmark fun fuel => ?_
  have hkey : scanKey (name.toList ++ ':' :: t) = some ([name], ':' :: t) :=
    scanKey_word hname (by rintro _ ⟨⟩; rfl) (skipBlank_of_head? (by rintro _ ⟨⟩; rfl))
      (by rintro _ ⟨⟩; decide)
  rw [← hcons, scanStatement_word hname, scanEntry, bind_of_eq hkey]
  exact bind_of_none rfl

/-- No statement begins with a brace. -/
theorem read?_brace {s : String} {t : List Char} (hs : s.toList = '\x7b' :: t) :
    read? s = none := by
  refine read?_of_refused hs rfl (by decide) fun fuel => ?_
  rw [scanStatement_of_ne (by decide), scanEntry]
  exact bind_of_none rfl

end Toml

end EquivalentCircuit
