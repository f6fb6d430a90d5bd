import EquivalentCircuit.Document.Codec
import EquivalentCircuit.Proofs.TapCodec

/-! Documents written and read back. The numbers of a document that was read are finite, since no
text spells others, so writing it loses nothing: reading what is written gives the document again,
with the members that were left out standing for what they stood for. -/

namespace EquivalentCircuit

variable {α : Type}

def RawEnd.numbers (e : RawEnd α) : List α :=
  [e.r, e.x, e.g, e.b, e.ratedU] ++ e.ratioTapChanger.toList.flatMap TapChangerSpec.numbers ++
    e.phaseTapChanger.toList.flatMap TapChangerSpec.numbers

def RawTwoWinding.numbers (t : RawTwoWinding α) : List α := t.end1.numbers ++ t.end2.numbers

def RawThreeWinding.numbers (t : RawThreeWinding α) : List α := t.windings.flatMap RawEnd.numbers

def Document.numbers (d : Document α) : List α :=
  d.twoWinding.flatMap RawTwoWinding.numbers ++ d.threeWinding.flatMap RawThreeWinding.numbers

namespace RawEnd

theorem ofJson?_toJson {e : RawEnd Float} (h : AllFinite e.numbers) :
    ofJson? e.toJson = some e := by
  simp only [numbers, AllFinite.append_iff, AllFinite.cons_iff, AllFinite.flatMap_toList_iff] at h
  obtain ⟨⟨⟨hr, hx, hg, hb, hu, -⟩, hratio⟩, hphase⟩ := h
  have hratio' := Fields.elim_map_toOption? rfl fun s hs =>
    TapChangerSpec.ofJson?_toJson (hratio s hs)
  have hphase' := Fields.elim_map_toOption? rfl fun s hs =>
    TapChangerSpec.ofJson?_toJson (hphase s hs)
  rw [ofJson?, toJson, Json.fields?_record]
  · simp [hr, hx, hg, hb, hu, hratio', hphase']
  · decide
  · change List.Sublist _ (["r", "x", "g", "b", "rated_u", "terminal", "phase_angle_clock"] ++
      ["ratio_tap_changer"] ++ ["phase_tap_changer"])
    exact Json.append_memberOf_sublist (Json.append_memberOf_sublist (.refl _) _ _ _) _ _ _

theorem reads_ofJson? : Json.Reads ofJson? fun e => AllFinite e.numbers := by
  intro j e hj h
  simp only [ofJson?, Option.bind_eq_bind, Option.bind_eq_some_iff, Option.pure_def,
    Option.some.injEq] at h
  obtain ⟨f, hf, r, hr, x, hx, g, hg, b, hb, u, hu, terminal, -, clock, -, ratio, hratio, phase,
    hphase, rfl⟩ := h
  have hfinite := Fields.finite_of_fields? hj hf
  have hratio' := hfinite.defaulted_toOption? TapChangerSpec.reads_ofJson? hratio
  have hphase' := hfinite.defaulted_toOption? TapChangerSpec.reads_ofJson? hphase
  simp only [numbers, AllFinite.append_iff, AllFinite.cons_iff, AllFinite.flatMap_toList_iff]
  exact ⟨⟨⟨hfinite.required_toFloat? hr, hfinite.required_toFloat? hx,
    hfinite.defaulted_toFloat? hg, hfinite.defaulted_toFloat? hb, hfinite.required_toFloat? hu,
    .nil⟩, hratio'⟩, hphase'⟩

end RawEnd

namespace RawTwoWinding

theorem ofJson?_toJson {t : RawTwoWinding Float} (h : AllFinite t.numbers) :
    ofJson? t.toJson = some t := by
  have hf : t.toJson.fields? ["id", "end1", "end2"] = some _ :=
    Json.fields?_record (by decide) (.refl _)
  obtain ⟨h1, h2⟩ := AllFinite.append_iff.1 h
  rw [ofJson?, hf]
  simp [RawEnd.ofJson?_toJson h1, RawEnd.ofJson?_toJson h2]

theorem reads_ofJson? : Json.Reads ofJson? fun t => AllFinite t.numbers := by
  intro j t hj h
  simp only [ofJson?, Option.bind_eq_bind, Option.bind_eq_some_iff, Option.pure_def,
    Option.some.injEq] at h
  obtain ⟨f, hf, id, -, end1, h1, end2, h2, rfl⟩ := h
  have hfinite := Fields.finite_of_fields? hj hf
  have h1' := hfinite.required RawEnd.reads_ofJson? h1
  have h2' := hfinite.required RawEnd.reads_ofJson? h2
  exact AllFinite.append_iff.2 ⟨h1', h2'⟩

end RawTwoWinding

namespace RawThreeWinding

theorem ofJson?_toJson {t : RawThreeWinding Float} (h : AllFinite t.numbers) :
    ofJson? t.toJson = some t := by
  have hf : t.toJson.fields? ["id", "windings"] = some _ :=
    Json.fields?_record (by decide) (.refl _)
  have hwindings := Json.toList?_map fun e he =>
    RawEnd.ofJson?_toJson (AllFinite.flatMap_iff.1 h e he)
  rw [ofJson?, hf]
  simp [hwindings]

theorem reads_ofJson? : Json.Reads ofJson? fun t => AllFinite t.numbers := by
  intro j t hj h
  simp only [ofJson?, Option.bind_eq_bind, Option.bind_eq_some_iff, Option.pure_def,
    Option.some.injEq] at h
  obtain ⟨f, hf, id, -, windings, hwindings, rfl⟩ := h
  have hfinite := Fields.finite_of_fields? hj hf
  have hwindings' := hfinite.required RawEnd.reads_ofJson?.toList? hwindings
  exact AllFinite.flatMap_iff.2 hwindings'

end RawThreeWinding

namespace Document

theorem ofJson?_toJson {d : Document Float} (h : AllFinite d.numbers) :
    ofJson? d.toJson = some d := by
  have hf : d.toJson.fields? ["two_winding", "three_winding"] = some _ :=
    Json.fields?_record (by decide) (.refl _)
  obtain ⟨htwo, hthree⟩ := AllFinite.append_iff.1 h
  have htwo' := Json.toList?_map fun t ht =>
    RawTwoWinding.ofJson?_toJson (AllFinite.flatMap_iff.1 htwo t ht)
  have hthree' := Json.toList?_map fun t ht =>
    RawThreeWinding.ofJson?_toJson (AllFinite.flatMap_iff.1 hthree t ht)
  rw [ofJson?, hf]
  simp [htwo', hthree']

theorem reads_ofJson? : Json.Reads ofJson? fun d => AllFinite d.numbers := by
  intro j d hj h
  simp only [ofJson?, Option.bind_eq_bind, Option.bind_eq_some_iff, Option.pure_def,
    Option.some.injEq] at h
  obtain ⟨f, hf, two, htwo, three, hthree, rfl⟩ := h
  have hfinite := Fields.finite_of_fields? hj hf
  have htwo' := hfinite.defaulted_toList? RawTwoWinding.reads_ofJson? htwo
  have hthree' := hfinite.defaulted_toList? RawThreeWinding.reads_ofJson? hthree
  exact AllFinite.append_iff.2 ⟨AllFinite.flatMap_iff.2 htwo', AllFinite.flatMap_iff.2 hthree'⟩

/-- A document that was read from a text comes back from its own record. -/
theorem toJson_reads_back {text : String} {d : Document Float}
    (h : (Json.read? text).bind ofJson? = some d) : ofJson? d.toJson = some d := by
  obtain ⟨j, hj, hd⟩ := Option.bind_eq_some_iff.1 h
  exact ofJson?_toJson (reads_ofJson? j d (Json.finite_of_read? hj) hd)

/-- A kind after the members it decides about, records and lists, members left out and null. -/
theorem toJson_reads_back_kind_last :
    let text :=
      "\x7b\"two_winding\":[[\"T\"," ++
        "\x7b\"r\":0.25,\"x\":2,\"rated_u\":11e1,\"terminal\":\"A\"\x7d," ++
        "[0,1,0,0,20,\"B\",5,null,[\"b\",\x7b\"steps\":[[1],[1.25,-3]],\"low_tap_position\":1," ++
        "\"neutral_position\":1,\"kind\":\"table\"\x7d,2]]]]\x7d"
    let end1 : RawEnd Float := ⟨0.25, 2, 0, 0, 110, "A", 0, none, none⟩
    let end2 : RawEnd Float :=
      ⟨0, 1, 0, 0, 20, "B", 5, none,
        some ⟨"b", .explicit 1 1 [.plain 1 ⟨0⟩, .plain 1.25 ⟨-3⟩], some 2, none⟩⟩
    let d : Document Float := ⟨[⟨"T", end1, end2⟩], []⟩
    (Json.read? text).bind ofJson? = some d ∧ ofJson? d.toJson = some d := by
  intro text end1 end2 d
  have hd : (Json.read? text).bind ofJson? = some d := by decide +kernel
  exact ⟨hd, toJson_reads_back hd⟩

end Document

end EquivalentCircuit
