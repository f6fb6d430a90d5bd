import EquivalentCircuit.Files.Tree
import EquivalentCircuit.Proofs.Accounting
import EquivalentCircuit.Proofs.ByName
import EquivalentCircuit.Proofs.ConvertedTaps
import EquivalentCircuit.Proofs.TextOrder

/-! The controls of a run. A transformer with a converted tap changer that carries a control has one
entry, which lists the controls of its tap changers; adding entries one after the other loses none
of them, since no id is converted twice. -/

namespace EquivalentCircuit

variable {α : Type}

def PlacedTap.record? (t : PlacedTap α) : Option (ControlRecord α) :=
  t.tap.regulation.map fun r => ⟨t.kind, t.winding, t.tap.id, r⟩

theorem PlacedTap.record?_isSome (t : PlacedTap α) :
    t.record?.isSome = t.tap.regulation.isSome := by
  rw [record?, Option.isSome_map]

def ConvertedJob.taps : ConvertedJob → List (PlacedTap Float)
  | two c => c.model.taps
  | three c => c.model.taps

/-! The records of one transformer. -/

theorem ControlRecord.ofTapChanger_eq (kind : TapChangerKind) (winding : Option WindingIndex)
    (t : Option (TapChanger α)) :
    ofTapChanger kind winding t =
      (t.map (PlacedTap.mk kind winding)).toList.filterMap PlacedTap.record? := by
  cases t with
  | none => rfl
  | some t =>
    rw [ofTapChanger, Option.map_some, Option.toList_some, List.filterMap_cons, PlacedTap.record?]
    cases t.regulation with
    | none => rfl
    | some r => rfl

theorem ControlRecord.ofTwoWinding_eq (t : TwoWindingModel α) :
    ofTwoWinding t = t.taps.filterMap PlacedTap.record? := by
  rw [ofTwoWinding, ofTapChanger_eq, ofTapChanger_eq, ← List.filterMap_append]
  rfl

/-- The legs of a model carry the index of their place. -/
theorem ControlRecord.ofThreeWinding_eq {t : ThreeWindingModel α}
    (h : ∀ i, (t.legs.get i).index = i) :
    ofThreeWinding t = t.taps.filterMap PlacedTap.record? := by
  have hleg (i : WindingIndex) : ofLeg (t.legs.get i) =
      (placedTaps (some i) (t.legs.get i).end1.ratioTapChanger
        (t.legs.get i).end1.phaseTapChanger).filterMap PlacedTap.record? := by
    rw [ofLeg, h i, ofTapChanger_eq, ofTapChanger_eq, ← List.filterMap_append]
    rfl
  rw [ThreeWindingModel.taps, List.filterMap_flatMap, ← funext hleg]
  rfl

/-- The records of a job are those of its tap changers. -/
theorem Job.controls_of_convert {p : Policy} {j : Job} {c : ConvertedJob}
    (h : j.convert p = .ok c) : c.controls = c.taps.filterMap PlacedTap.record? := by
  cases j with
  | two raw =>
    obtain ⟨ends, -, d, hd, rfl⟩ := convert_two_eq_ok.1 h
    obtain ⟨-, s, -, rfl⟩ := TwoWindingEnds.convert_eq_ok.1 hd
    exact ControlRecord.ofTwoWinding_eq _
  | three raw =>
    obtain ⟨ends, -, d, hd, rfl⟩ := convert_three_eq_ok.1 h
    have hindex (i : WindingIndex) : (d.model.legs.get i).index = i := by
      obtain ⟨s, hs⟩ := ThreeWindingEnds.exists_leg_of_convert hd i
      exact congrArg LegModel.index hs
    obtain ⟨-, legs, -, rfl⟩ := ThreeWindingEnds.convert_eq_ok.1 hd
    exact ControlRecord.ofThreeWinding_eq hindex

theorem filterMap_record?_isEmpty (ts : List (PlacedTap α)) :
    (!(ts.filterMap PlacedTap.record?).isEmpty) = true ↔ ∃ t ∈ ts, t.tap.regulation.isSome := by
  rw [Bool.not_eq_true', List.isEmpty_eq_false_iff_exists_mem]
  constructor
  · rintro ⟨r, hr⟩
    obtain ⟨t, ht, hrecord⟩ := List.mem_filterMap.1 hr
    exact ⟨t, ht, by rw [← t.record?_isSome, hrecord, Option.isSome_some]⟩
  · rintro ⟨t, ht, hregulation⟩
    rw [← t.record?_isSome] at hregulation
    exact ⟨_, List.mem_filterMap.2 ⟨t, ht, (Option.some_get hregulation).symm⟩⟩

/-! The controls of a run. -/

namespace ConvertedDocument

def models (d : ConvertedDocument) : List (String × List (PlacedTap Float)) :=
  d.twoWinding.map (fun t => (t.id, t.taps)) ++ d.threeWinding.map fun t => (t.id, t.taps)

def controlEntries (d : ConvertedDocument) : List (String × List (ControlRecord Float)) :=
  (d.models.map fun m => (m.1, m.2.filterMap PlacedTap.record?)).filter fun e => !e.2.isEmpty

theorem mem_controlEntries {d : ConvertedDocument} {id : String}
    {records : List (ControlRecord Float)} :
    (id, records) ∈ d.controlEntries ↔ ∃ m ∈ d.models, m.1 = id ∧
      records = m.2.filterMap PlacedTap.record? ∧ ∃ t ∈ m.2, t.tap.regulation.isSome := by
  rw [controlEntries, List.mem_filter, List.mem_map]
  constructor
  · rintro ⟨⟨m, hm, he⟩, hrecords⟩
    cases he
    exact ⟨m, hm, rfl, rfl, (filterMap_record?_isEmpty m.2).1 hrecords⟩
  · rintro ⟨m, hm, rfl, rfl, ht⟩
    exact ⟨⟨m, hm, rfl⟩, (filterMap_record?_isEmpty m.2).2 ht⟩

def entries (cs : List ConvertedJob) : List (String × List (ControlRecord Float)) :=
  (cs.map fun c => (c.id, c.controls)).filter fun e => !e.2.isEmpty

theorem foldl_addControls (done : List (String × List (ControlRecord Float)))
    (cs : List ConvertedJob) : cs.foldl addControls done = insertAll done (entries cs) := by
  induction cs generalizing done with
  | nil => rfl
  | cons c cs ih =>
    rw [List.foldl_cons, ih, entries, entries, List.map_cons, List.filter_cons, addControls]
    by_cases h : c.controls.isEmpty = true
    · rw [if_pos h, if_neg (by simpa using h)]
    · rw [if_neg h, if_pos (by simpa using h)]
      rfl

theorem controls_ofJobs (cs : List ConvertedJob) :
    (ofJobs cs).controls = insertAll [] (entries cs) :=
  foldl_addControls [] cs

theorem ascending_controls (cs : List ConvertedJob) : Ascending (ofJobs cs).controls := by
  rw [controls_ofJobs]
  exact Ascending.insertAll List.Pairwise.nil _

theorem models_perm (cs : List ConvertedJob) :
    (ofJobs cs).models.Perm (cs.map fun c => (c.id, c.taps)) :=
  ofJobs_perm (fun _ => rfl) (fun _ => rfl) cs

section DistinctIds

variable {cs : List ConvertedJob} (hid : (cs.map ConvertedJob.id).Nodup)
include hid

theorem models_nodup : ((ofJobs cs).models.map Prod.fst).Nodup := by
  refine ((models_perm cs).map Prod.fst).nodup_iff.2 ?_
  rw [List.map_map]
  exact hid

theorem entries_nodup : ((entries cs).map Prod.fst).Nodup := by
  have hsub : ((entries cs).map Prod.fst).Sublist (cs.map ConvertedJob.id) := by
    have hmap : (cs.map fun c => (c.id, c.controls)).map Prod.fst = cs.map ConvertedJob.id :=
      List.map_map
    rw [← hmap]
    exact List.filter_sublist.map _
  exact hid.sublist hsub

/-- Nothing is replaced on the way, so all entries are there in the end. -/
theorem controls_perm_entries : (ofJobs cs).controls.Perm (entries cs) := by
  rw [controls_ofJobs]
  exact insertAll_perm (entries_nodup hid)

theorem controls_perm (hcontrols : ∀ c ∈ cs, c.controls = c.taps.filterMap PlacedTap.record?) :
    (ofJobs cs).controls.Perm (ofJobs cs).controlEntries := by
  have hmap : (cs.map fun c => (c.id, c.controls)) =
      (cs.map fun c => (c.id, c.taps)).map fun m => (m.1, m.2.filterMap PlacedTap.record?) := by
    rw [List.map_map]
    exact List.map_congr_left fun c hc => Prod.ext rfl (hcontrols c hc)
  refine (controls_perm_entries hid).trans ?_
  rw [entries, hmap]
  exact ((models_perm cs).symm.map _).filter _

end DistinctIds

end ConvertedDocument

/-- The controls of a converted document are those of its models. -/
structure ControlsExact (d : ConvertedDocument) : Prop where
  present : ∀ id, (∃ records, d.controls.lookup id = some records) ↔
    ∃ m ∈ d.models, m.1 = id ∧ ∃ t ∈ m.2, t.tap.regulation.isSome
  records : ∀ m ∈ d.models, ∀ records, d.controls.lookup m.1 = some records →
    records = m.2.filterMap PlacedTap.record?
  entries : d.controls.Perm d.controlEntries
  ascending : d.controls.Pairwise fun e f => utf8Bytes e.1 < utf8Bytes f.1

theorem ConvertedDocument.ofJobs_controlsExact {cs : List ConvertedJob}
    (hid : (cs.map ConvertedJob.id).Nodup)
    (hcontrols : ∀ c ∈ cs, c.controls = c.taps.filterMap PlacedTap.record?) :
    ControlsExact (ofJobs cs) := by
  have hnames : ((ofJobs cs).controls.map Prod.fst).Nodup :=
    ((controls_perm_entries hid).map _).nodup_iff.2 (entries_nodup hid)
  have hlookup (id : String) (records : List (ControlRecord Float)) :
      (ofJobs cs).controls.lookup id = some records ↔
        (id, records) ∈ (ofJobs cs).controlEntries := by
    rw [lookup_eq_some_iff hnames, (controls_perm hid hcontrols).mem_iff]
  refine ⟨fun id => ?_, fun m hm records h => ?_, controls_perm hid hcontrols, ?_⟩
  · simp only [hlookup, mem_controlEntries]
    constructor
    · rintro ⟨records, m, hm, he, -, ht⟩
      exact ⟨m, hm, he, ht⟩
    · rintro ⟨m, hm, he, ht⟩
      exact ⟨_, m, hm, he, rfl, ht⟩
  · -- the entry belongs to a model of this id, and there is only one
    obtain ⟨n, hn, he, rfl, -⟩ := mem_controlEntries.1 ((hlookup _ _).1 h)
    rw [List.inj_on_of_nodup_map (models_nodup hid) hn hm he]
  · exact (ascending_controls cs).imp utf8Bytes_lt

theorem Document.convert_controlsExact (d : Document Float) (p : Policy) :
    ControlsExact (d.convert p).converted := by
  refine ConvertedDocument.ofJobs_controlsExact (Job.outcomes_nodup p [] d.jobs).1 fun c hc => ?_
  obtain ⟨j, hj⟩ := Job.exists_convert_of_mem_outcomes p [] hc
  exact Job.controls_of_convert hj

/-- Under any settings the controls of a run that returns are exact; without a manifest every run
returns. -/
theorem Document.run_controlsExact (d : Document Float) (s : BatchSettings) (now : Timestamp) :
    (∀ {σ : Type} [FileSystem σ] (files : σ) (a : BatchSummary),
      ((d.run s now : Attempt (StateM σ) BatchSummary).run.run files).1 = .ok a →
        ControlsExact a.converted) ∧
    (s.manifest = none → ∀ {σ : Type} [FileSystem σ] (files : σ),
      (d.run s now : Attempt (StateM σ) BatchSummary).run.run files =
        (.ok (d.convert s.policy), files)) := by
  constructor
  · intro σ _ files a h
    rw [eq_convert_of_run h]
    exact d.convert_controlsExact s.policy
  · intro hs σ _ files
    exact run_of_no_manifest hs d now files

/-- Two models with controls, in the order of the document not that of their names, one without, a
repeat and one that fails. -/
theorem Document.run_controlsExact_both_lists :
    let control : Regulation Float := ⟨.voltage, 110, 1, none, true⟩
    let tap (name : String) (r : Option (Regulation Float)) : Option (TapChangerSpec Float) :=
      some ⟨name, .linearRatio ⟨-1, 1, 0⟩ 1, none, r⟩
    let plain : RawEnd Float := ⟨1, 10, 0, 0, 110, "1", 0, none, none⟩
    let end1 : RawEnd Float := ⟨1, 10, 0, 0, 110, "1", 0, tap "R" control, tap "P" control⟩
    let end2 : RawEnd Float := ⟨1, 10, 0, 0, 110, "2", 0, tap "S" none, none⟩
    let bad : RawEnd Float := ⟨1, 10, 0, 0, 0, "1", 0, none, tap "Q" control⟩
    let d : Document Float :=
      ⟨[⟨"é", end1, end2⟩, ⟨"a", plain, plain⟩, ⟨"b", bad, plain⟩, ⟨"é", plain, plain⟩],
        [⟨"Z", [end2, end1, plain]⟩, ⟨"é", [end1, end1, end1]⟩]⟩
    let s : BatchSettings := ⟨{}, none, "grid"⟩
    ∃ a,
      (d.run s ⟨0, 0⟩ : Attempt (StateM FileTree) BatchSummary).run.run .empty = (.ok a, .empty) ∧
      a.converted.controls.map (fun e => (e.1, e.2.map fun r => (r.winding, r.tapChanger))) =
        [("Z", [(some .two, "R"), (some .two, "P")]), ("é", [(none, "R+S"), (none, "P")])] ∧
      ControlsExact a.converted := by
  intro control tap plain end1 end2 bad d s
  obtain ⟨hexact, hreturn⟩ := run_controlsExact d s ⟨0, 0⟩
  have ha := hreturn rfl FileTree.empty
  exact ⟨_, ha, by decide +kernel, hexact FileTree.empty _ (congrArg Prod.fst ha)⟩

end EquivalentCircuit
