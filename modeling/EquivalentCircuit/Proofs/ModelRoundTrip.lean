import EquivalentCircuit.Batch.Codec
import EquivalentCircuit.Proofs.Building
import EquivalentCircuit.Proofs.Controls
import EquivalentCircuit.Proofs.TapCodec

/-! Models, conversions and records written and read back. Names of choices come back from the list
of all choices, a map from its names as long as they stand in order, and numbers as long as they are
finite. -/

namespace EquivalentCircuit

variable {α β : Type}

/-! Choices by name. -/

@[simp] theorem Severity.ofName?_name (s : Severity) : ofName? s.name = some s := by
  cases s <;> rfl

@[simp] theorem Condition.ofName?_name (c : Condition) : ofName? c.name = some c := by
  cases c <;> rfl

@[simp] theorem TransformerKind.ofName?_name (k : TransformerKind) : ofName? k.name = some k := by
  cases k <;> rfl

@[simp] theorem TapChangerKind.ofName?_name (k : TapChangerKind) : ofName? k.name = some k := by
  cases k <;> rfl

@[simp] theorem WindingIndex.ofName?_name (w : WindingIndex) : ofName? w.name = some w := by
  cases w <;> decide

/-! Diagnostics and records, which hold no numbers. -/

theorem Issue.ofJson?_toJson (i : Issue) : ofJson? i.toJson = some i := by
  have hentity : (i.entity.map Json.text).elim (some none) (Json.toOption? Json.toText?) =
      some i.entity :=
    Fields.elim_map_toOption? rfl fun _ _ => rfl
  rw [ofJson?, toJson, Json.fields?_record]
  · simp [hentity]
  · decide
  · change List.Sublist _ (["severity", "kind", "message"] ++ ["entity"])
    exact Json.append_memberOf_sublist (.refl _) _ _ _

theorem Diagnostics.ofJson?_toJson (d : Diagnostics) : ofJson? d.toJson = some d := by
  cases d with
  | nil => rfl
  | cons i is =>
    have hf : (toJson (i :: is)).fields? ["issues"] = some _ :=
      Json.fields?_record (by decide) (.refl _)
    have hissues := Json.toList?_map (l := i :: is) fun i _ => Issue.ofJson?_toJson i
    rw [ofJson?, hf]
    simpa using hissues

theorem ConversionRecord.ofJson?_toJson (r : ConversionRecord) : ofJson? r.toJson = some r := by
  have hf : r.toJson.fields?
      ["transformer_id", "kind", "status", "error", "diagnostics"] = some _ :=
    Json.fields?_record (by decide) (.refl _)
  have herror : (Json.ofOption Json.text r.error).toOption? Json.toText? = some r.error :=
    Json.toOption?_ofOption rfl fun _ _ => rfl
  rw [ofJson?, hf]
  simp [herror, Diagnostics.ofJson?_toJson]

/-! Models. -/

theorem PerWinding.ofJson?_toJson {read : Json → Option β} {write : β → Json} {p : PerWinding β}
    (h : ∀ b ∈ p.toList, read (write b) = some b) : ofJson? read (p.toJson write) = some p := by
  rw [ofJson?, toJson, Json.toList?_map h]
  rfl

def TwoWindingModel.numbers (t : TwoWindingModel α) : List α :=
  [t.r, t.x, t.end1.g, t.end1.b, t.end1.ratedU.value, t.end2.ratedU.value] ++
    t.end1.ratioTapChanger.toList.flatMap TapChanger.numbers ++
    t.end1.phaseTapChanger.toList.flatMap TapChanger.numbers

def LegModel.numbers (l : LegModel α) : List α :=
  [l.r, l.x, l.end1.g, l.end1.b, l.end1.ratedU.value, l.end2.g, l.end2.b] ++
    l.end1.ratioTapChanger.toList.flatMap TapChanger.numbers ++
    l.end1.phaseTapChanger.toList.flatMap TapChanger.numbers

def ThreeWindingModel.numbers (t : ThreeWindingModel α) : List α :=
  t.ratedUf.value :: t.legs.toList.flatMap LegModel.numbers

def ControlRecord.numbers (c : ControlRecord α) : List α := c.regulation.numbers

/-- A tap changer, or null for none. -/
theorem TapChanger.toOption?_toJson {o : Option (TapChanger Float)}
    (h : ∀ t ∈ o, AllFinite t.numbers) (hw : ∀ t ∈ o, t.FitsWord) :
    (Json.ofOption TapChanger.toJson o).toOption? TapChanger.ofJson? = some o :=
  Json.toOption?_ofOption rfl fun t ht => TapChanger.ofJson?_toJson (h t ht) (hw t ht)

theorem TwoWindingModel.ofJson?_toJson {t : TwoWindingModel Float} (h : AllFinite t.numbers)
    (hw : ∀ u ∈ t.taps, u.tap.FitsWord) : ofJson? t.toJson = some t := by
  simp only [numbers, AllFinite.append_iff, AllFinite.cons_iff, AllFinite.flatMap_toList_iff] at h
  obtain ⟨⟨⟨hr, hx, hg, hb, hu1, hu2, -⟩, hratio⟩, hphase⟩ := h
  obtain ⟨hratioFits, hphaseFits⟩ := forall_mem_placedTaps.1 hw
  have hratio' := TapChanger.toOption?_toJson hratio hratioFits
  have hphase' := TapChanger.toOption?_toJson hphase hphaseFits
  have hf : t.toJson.fields? ["id", "r", "x", "end1", "end2", "phase_angle_clock"] = some _ :=
    Json.fields?_record (by decide) (.refl _)
  have hf1 : t.end1.toJson.fields?
      ["g", "b", "ratio_tap_changer", "phase_tap_changer", "rated_u", "terminal"] = some _ :=
    Json.fields?_record (by decide) (.refl _)
  have hf2 : t.end2.toJson.fields? ["rated_u", "terminal"] = some _ :=
    Json.fields?_record (by decide) (.refl _)
  have h1 : End1.ofJson? t.end1.toJson = some t.end1 := by
    rw [End1.ofJson?, hf1]
    simp [hg, hb, hu1, hratio', hphase']
  have h2 : End2.ofJson? t.end2.toJson = some t.end2 := by
    rw [End2.ofJson?, hf2]
    simp [hu2]
  rw [ofJson?, hf]
  simp [hr, hx, h1, h2]

theorem LegModel.ofJson?_toJson {l : LegModel Float} (h : AllFinite l.numbers)
    (hratioFits : ∀ t ∈ l.end1.ratioTapChanger, t.FitsWord)
    (hphaseFits : ∀ t ∈ l.end1.phaseTapChanger, t.FitsWord) : ofJson? l.toJson = some l := by
  simp only [numbers, AllFinite.append_iff, AllFinite.cons_iff, AllFinite.flatMap_toList_iff] at h
  obtain ⟨⟨⟨hr, hx, hg1, hb1, hu, hg2, hb2, -⟩, hratio⟩, hphase⟩ := h
  have hratio' := TapChanger.toOption?_toJson hratio hratioFits
  have hphase' := TapChanger.toOption?_toJson hphase hphaseFits
  have hf : l.toJson.fields? ["index", "r", "x", "end1", "end2"] = some _ :=
    Json.fields?_record (by decide) (.refl _)
  have hf1 : l.end1.toJson.fields?
      ["g", "b", "ratio_tap_changer", "phase_tap_changer", "phase_angle_clock", "rated_u",
        "terminal"] = some _ :=
    Json.fields?_record (by decide) (.refl _)
  have hf2 : l.end2.toJson.fields? ["g", "b"] = some _ :=
    Json.fields?_record (by decide) (.refl _)
  have h1 : End1.ofJson? l.end1.toJson = some l.end1 := by
    rw [End1.ofJson?, hf1]
    simp [hg1, hb1, hu, hratio', hphase']
  have h2 : End2.ofJson? l.end2.toJson = some l.end2 := by
    rw [End2.ofJson?, hf2]
    simp [hg2, hb2]
  rw [ofJson?, hf]
  simp [hr, hx, h1, h2]

theorem ThreeWindingModel.ofJson?_toJson {t : ThreeWindingModel Float} (h : AllFinite t.numbers)
    (hw : ∀ u ∈ t.taps, u.tap.FitsWord) : ofJson? t.toJson = some t := by
  obtain ⟨hu, hlegs⟩ := AllFinite.cons_iff.1 h
  rw [AllFinite.flatMap_iff] at hlegs
  have hf : t.toJson.fields? ["id", "rated_uf", "windings"] = some _ :=
    Json.fields?_record (by decide) (.refl _)
  have hlegs' : PerWinding.ofJson? LegModel.ofJson? (t.legs.toJson LegModel.toJson) =
      some t.legs := by
    refine PerWinding.ofJson?_toJson fun l hl => ?_
    obtain ⟨i, rfl⟩ := PerWinding.mem_toList.1 hl
    have hleg := List.forall_mem_flatMap.1 hw i (by cases i <;> decide)
    obtain ⟨hratio, hphase⟩ := forall_mem_placedTaps.1 hleg
    exact LegModel.ofJson?_toJson (hlegs _ hl) hratio hphase
  rw [ofJson?, hf]
  simp [hu, hlegs']

/-! Conversions and what a run gives. -/

theorem ControlRecord.ofJson?_toJson {c : ControlRecord Float} (h : AllFinite c.numbers) :
    ofJson? c.toJson = some c := by
  have hwinding : (c.winding.map fun w : WindingIndex => Json.text w.name).elim (some none)
      (Json.toOption? (Json.toChoice? WindingIndex.ofName?)) = some c.winding :=
    Fields.elim_map_toOption? rfl fun w _ => w.ofName?_name
  rw [ofJson?, toJson, Json.fields?_record]
  · simp [hwinding, Regulation.ofJson?_toJson h]
  · decide
  · change List.Sublist _ (["kind"] ++ ["winding"] ++ ["tap_changer", "regulation"])
    rw [List.map_append]
    exact (Json.append_memberOf_sublist (.refl _) _ _ _).append (.refl _)

theorem ControlRecord.listOfJson?_listToJson {cs : List (ControlRecord Float)}
    (h : ∀ c ∈ cs, AllFinite c.numbers) : listOfJson? (listToJson cs) = some cs :=
  Json.toList?_map fun c hc => ControlRecord.ofJson?_toJson (h c hc)

def Conversion.numbers (numbers : β → List α) (c : Conversion α β) : List α :=
  numbers c.model ++ c.controls.flatMap ControlRecord.numbers

theorem Conversion.ofJson?_toJson {read : Json → Option β} {write : β → Json}
    {numbers : β → List Float} {c : Conversion Float β} (h : AllFinite (c.numbers numbers))
    (hmodel : AllFinite (numbers c.model) → read (write c.model) = some c.model) :
    ofJson? read (c.toJson write) = some c := by
  obtain ⟨hfinite, hcontrols⟩ := AllFinite.append_iff.1 h
  rw [AllFinite.flatMap_iff] at hcontrols
  have hf : (c.toJson write).fields? ["model", "regulating", "diagnostics"] = some _ :=
    Json.fields?_record (by decide) (.refl _)
  rw [ofJson?, hf]
  simp [hmodel hfinite, ControlRecord.listOfJson?_listToJson hcontrols,
    Diagnostics.ofJson?_toJson]

theorem Json.toMap?_record {read : Json → Option β} {write : β → Json} {l : List (String × β)}
    (ha : Ascending l) (h : ∀ e ∈ l, read (write e.2) = some e.2) :
    (record (l.map fun e => (e.1, write e.2))).toMap? read = some l := by
  have hentries : (l.map fun e => (e.1, write e.2)).mapM
      (fun m => (read m.2).map (m.1, ·)) = some l := by
    refine mapM_eq_some_iff.2 (List.forall₂_map_left_iff.2 (List.forall₂_same.2 fun e he => ?_))
    rw [h e he, Option.map_some]
  change ((l.map fun e => (e.1, write e.2)).mapM (fun m => (read m.2).map (m.1, ·))).bind
    (fun ms => some (insertAll [] ms)) = some l
  rw [hentries, Option.bind_some]
  exact congrArg some (insertAll_of_ascending ha)

namespace ConvertedDocument

def numbers (d : ConvertedDocument) : List Float :=
  d.twoWinding.flatMap TwoWindingModel.numbers ++
    d.threeWinding.flatMap ThreeWindingModel.numbers ++
    d.controls.flatMap fun e => e.2.flatMap ControlRecord.numbers

theorem ofJson?_toJson {d : ConvertedDocument} (h : AllFinite d.numbers)
    (hw : ∀ m ∈ d.models, ∀ u ∈ m.2, u.tap.FitsWord) (ha : Ascending d.controls) :
    ofJson? d.toJson = some d := by
  rw [models, List.forall_mem_append, List.forall_mem_map, List.forall_mem_map] at hw
  obtain ⟨htwo, hthree⟩ := hw
  simp only [numbers, AllFinite.append_iff, AllFinite.flatMap_iff] at h
  obtain ⟨⟨htwoFinite, hthreeFinite⟩, hcontrols⟩ := h
  have hf : d.toJson.fields? ["two_winding", "three_winding", "regulating_controls"] = some _ :=
    Json.fields?_record (by decide) (.refl _)
  have htwo' := Json.toList?_map fun t ht =>
    TwoWindingModel.ofJson?_toJson (htwoFinite t ht) (htwo t ht)
  have hthree' := Json.toList?_map fun t ht =>
    ThreeWindingModel.ofJson?_toJson (hthreeFinite t ht) (hthree t ht)
  have hcontrols' := Json.toMap?_record ha fun e he =>
    ControlRecord.listOfJson?_listToJson (hcontrols e he)
  rw [ofJson?, hf]
  simp [htwo', hthree', hcontrols']

end ConvertedDocument

end EquivalentCircuit
