import EquivalentCircuit.Proofs.ModelRoundTrip
import EquivalentCircuit.Proofs.TapSize

/-! What a run writes can be read back: its converted document, its records and the conversions it
is made of. Steps are few enough for their indices to be machine words, and the controls stand in
the order of their ids. -/

namespace EquivalentCircuit

theorem TapChanger.Within.fitsWord {n : ℕ} {t : TapChanger Float} (h : t.Within n)
    (hn : n ≤ Nat.pow 2 64) : t.FitsWord := by
  have hindex (w : Position) : t.indexOf w < Nat.pow 2 64 :=
    (h.index_lt w).trans_le (h.length_le.trans hn)
  exact ⟨hindex .neutral, hindex .current⟩

theorem Job.fitsWord_of_convert {p : Policy} {j : Job} {c : ConvertedJob}
    (h : j.convert p = .ok c) : ∀ u ∈ c.taps, u.tap.FitsWord := by
  cases j with
  | two raw =>
    obtain ⟨ends, -, d, hd, rfl⟩ := convert_two_eq_ok.1 h
    exact fun u hu => (TwoWindingEnds.within_of_mem_taps hd u hu).fitsWord (by decide)
  | three raw =>
    obtain ⟨ends, -, d, hd, rfl⟩ := convert_three_eq_ok.1 h
    exact fun u hu => (ThreeWindingEnds.within_of_mem_taps hd u hu).fitsWord (by decide)

theorem Document.ofJson?_toJson_convert (d : Document Float) (p : Policy)
    (h : AllFinite (d.convert p).converted.numbers) :
    ConvertedDocument.ofJson? (d.convert p).converted.toJson = some (d.convert p).converted := by
  refine ConvertedDocument.ofJson?_toJson h ?_ ?_
  · intro m hm
    obtain ⟨c, hc, rfl⟩ := List.mem_map.1 ((ConvertedDocument.models_perm _).mem_iff.1 hm)
    obtain ⟨j, hj⟩ := Job.exists_convert_of_mem_outcomes p [] hc
    exact Job.fitsWord_of_convert hj
  · exact ConvertedDocument.ascending_controls _

/-- The converted document of a run that returns, any record, and any conversion to a model of
either kind come back from what is written of them. That indices are machine words is asked only of
conversions made up by hand; for those of a run it is proved. -/
theorem results_read_back :
    (∀ (d : Document Float) (s : BatchSettings) (now : Timestamp) {σ : Type} [FileSystem σ]
      (files : σ) (a : BatchSummary),
      ((d.run s now : Attempt (StateM σ) BatchSummary).run.run files).1 = .ok a →
        AllFinite a.converted.numbers →
          ConvertedDocument.ofJson? a.converted.toJson = some a.converted) ∧
    (∀ r : ConversionRecord, ConversionRecord.ofJson? r.toJson = some r) ∧
    (∀ c : Conversion Float (TwoWindingModel Float), AllFinite (c.numbers TwoWindingModel.numbers) →
      (∀ u ∈ c.model.taps, u.tap.FitsWord) →
        Conversion.ofJson? TwoWindingModel.ofJson? (c.toJson TwoWindingModel.toJson) = some c) ∧
    ∀ c : Conversion Float (ThreeWindingModel Float),
      AllFinite (c.numbers ThreeWindingModel.numbers) → (∀ u ∈ c.model.taps, u.tap.FitsWord) →
        Conversion.ofJson? ThreeWindingModel.ofJson? (c.toJson ThreeWindingModel.toJson) =
          some c := by
  refine ⟨fun d s now _ _ files a h hfinite => ?_, ConversionRecord.ofJson?_toJson,
    fun c h hw => ?_, fun c h hw => ?_⟩
  · rw [Document.eq_convert_of_run h] at hfinite ⊢
    exact d.ofJson?_toJson_convert s.policy hfinite
  · exact Conversion.ofJson?_toJson h fun hmodel => TwoWindingModel.ofJson?_toJson hmodel hw
  · exact Conversion.ofJson?_toJson h fun hmodel => ThreeWindingModel.ofJson?_toJson hmodel hw

/-- A run over combined tap changers, a clock that is dropped and a repeat; a model without tap
changers and one with some, with the controls of two windings and an issue. -/
theorem results_read_back_of_each_kind :
    let control : Regulation Float := ⟨.voltage, 110, 1, some "bus", true⟩
    let spec (name : String) : Option (TapChangerSpec Float) :=
      some ⟨name, .linearRatio ⟨-1, 1, 0⟩ 1, none, some control⟩
    let plain : RawEnd Float := ⟨1, 10, 0, 0, 110, "1", 0, none, none⟩
    let full : RawEnd Float := ⟨1, 10, 0.5, -2, 110, "2", 5, spec "R", spec "P"⟩
    let d : Document Float :=
      ⟨[⟨"é", full, full⟩, ⟨"é", plain, plain⟩], [⟨"Z", [plain, full, plain]⟩]⟩
    let s : BatchSettings := ⟨{ clocks := true }, none, "grid"⟩
    let tap : TapChanger Float := ⟨"R", -1, [.plain 0.9 ⟨0⟩, .plain 1 ⟨0⟩], 1, 0, some control⟩
    let two : Conversion Float (TwoWindingModel Float) :=
      ⟨⟨"T", 1, 10, ⟨0, 0, none, none, ⟨110⟩, "1"⟩, ⟨⟨20⟩, "2"⟩, 0⟩, [], []⟩
    let leg (w : WindingIndex) : LegModel Float :=
      ⟨w, 1, 10, ⟨0, 0, some tap, none, 0, ⟨110⟩, "1"⟩, ⟨0.5, 0⟩⟩
    let three : Conversion Float (ThreeWindingModel Float) :=
      ⟨⟨"U", ⟨110⟩, ⟨leg .one, leg .two, leg .three⟩⟩,
        [⟨.ratio, some .one, "R", control⟩, ⟨.ratio, some .two, "R", control⟩],
        [.warning .unsupportedModeling "clock" "U"]⟩
    ∃ a,
      (d.run s ⟨0, 0⟩ : Attempt (StateM FileTree) BatchSummary).run.run .empty = (.ok a, .empty) ∧
      a.converted.controls.map (·.1) = ["Z", "é"] ∧
      ConvertedDocument.ofJson? a.converted.toJson = some a.converted ∧
      (∀ r ∈ a.records, ConversionRecord.ofJson? r.toJson = some r) ∧
      Conversion.ofJson? TwoWindingModel.ofJson? (two.toJson TwoWindingModel.toJson) = some two ∧
      Conversion.ofJson? ThreeWindingModel.ofJson? (three.toJson ThreeWindingModel.toJson) =
        some three := by
  intro control spec plain full d s tap two leg three
  obtain ⟨hrun, hrecord, htwo, hthree⟩ := results_read_back
  have ha := Document.run_of_no_manifest (s := s) rfl d ⟨0, 0⟩ FileTree.empty
  refine ⟨_, ha, by decide +kernel,
    hrun d s ⟨0, 0⟩ FileTree.empty _ (congrArg Prod.fst ha) (by decide +kernel),
    fun r _ => hrecord r, htwo two (by decide +kernel) nofun,
    hthree three (by decide +kernel) (by decide +kernel)⟩

end EquivalentCircuit
