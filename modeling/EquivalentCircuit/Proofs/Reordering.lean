import EquivalentCircuit.Proofs.Controls
import EquivalentCircuit.Proofs.Repeats

/-! Transformers listed in another order. Where every id stands once, no transformer is met after
one of its id, so each has the outcome it has alone and a run is the list of these outcomes. Counts
do not see the order of a list, and the controls are sorted by name; the records and the models
stand as the transformers do. -/

namespace EquivalentCircuit

namespace Job

variable {p : Policy}

theorem outcome_converted (p : Policy) (j : Job) :
    (j.outcome p).converted = (j.convert p).toOption := by
  cases h : j.convert p with
  | ok c =>
    rw [outcome_of_ok h]
    rfl
  | error m =>
    rw [outcome_of_error h]
    rfl

theorem twoWindingModel?_three (raw : RawThreeWinding Float) :
    (three raw).twoWindingModel? p = none := by
  rw [twoWindingModel?]
  cases h : (three raw).convert p with
  | ok c =>
    obtain ⟨-, -, d, -, rfl⟩ := convert_three_eq_ok.1 h
    rfl
  | error m => rfl

theorem threeWindingModel?_two (raw : RawTwoWinding Float) :
    (two raw).threeWindingModel? p = none := by
  rw [threeWindingModel?]
  cases h : (two raw).convert p with
  | ok c =>
    obtain ⟨-, -, d, -, rfl⟩ := convert_two_eq_ok.1 h
    rfl
  | error m => rfl

end Job

namespace Document

variable {d d' : Document Float} {p : Policy}

theorem jobs_perm (htwo : d.twoWinding.Perm d'.twoWinding)
    (hthree : d.threeWinding.Perm d'.threeWinding) : d.jobs.Perm d'.jobs :=
  (htwo.map Job.two).append (hthree.map Job.three)

/-- Where every id stands once, a run is made of what each transformer gives alone. -/
theorem convert_of_nodup (h : d.ids.Nodup) (p : Policy) :
    d.convert p = .ofOutcomes (d.jobs.map (Job.outcome p)) := by
  rw [convert, Job.outcomes_of_nodup p [] h fun _ _ => List.not_mem_nil]

theorem filterMap_jobs {β : Type} (f : Job → Option β) :
    d.jobs.filterMap f = (d.twoWinding.filterMap fun t => f (.two t)) ++
      d.threeWinding.filterMap fun t => f (.three t) := by
  rw [jobs, List.filterMap_append, List.filterMap_map, List.filterMap_map]
  rfl

/-- Records and models stand in the order of the document, each made of its own transformer. -/
structure InOrder (p : Policy) (d : Document Float) (s : BatchSummary) : Prop where
  records : s.records = d.jobs.map fun j => (j.outcome p).record
  twoWinding : s.converted.twoWinding =
    d.twoWinding.filterMap fun t => (Job.two t).twoWindingModel? p
  threeWinding : s.converted.threeWinding =
    d.threeWinding.filterMap fun t => (Job.three t).threeWindingModel? p

theorem convert_inOrder (h : d.ids.Nodup) (p : Policy) : InOrder p d (d.convert p) := by
  have hmodels {β : Type} (keep : ConvertedJob → Option β) :
      ((d.jobs.map (Job.outcome p)).filterMap (·.converted)).filterMap keep =
        d.jobs.filterMap fun j => (j.convert p).toOption.bind keep := by
    rw [List.filterMap_map, List.filterMap_filterMap]
    simp only [Function.comp_apply, Job.outcome_converted]
  rw [convert_of_nodup h]
  refine ⟨List.map_map, (hmodels _).trans ?_, (hmodels _).trans ?_⟩
  · have hthree : (d.threeWinding.filterMap fun t => (Job.three t).twoWindingModel? p) = [] :=
      List.filterMap_eq_nil_iff.2 fun t _ => Job.twoWindingModel?_three t
    exact (filterMap_jobs _).trans ((congrArg _ hthree).trans (List.append_nil _))
  · have htwo : (d.twoWinding.filterMap fun t => (Job.two t).threeWindingModel? p) = [] :=
      List.filterMap_eq_nil_iff.2 fun t _ => Job.threeWindingModel?_two t
    exact (filterMap_jobs _).trans (congrArg (· ++ _) htwo)

end Document

/-- The counts of outcomes do not depend on their order. -/
theorem BatchSummary.ofOutcomes_counts {os os' : List Outcome} (h : os.Perm os') :
    (ofOutcomes os).success = (ofOutcomes os').success ∧
      (ofOutcomes os).failure = (ofOutcomes os').failure ∧
      (ofOutcomes os).conditions = (ofOutcomes os').conditions := by
  have hrecords : (os.map (·.record)).Perm (os'.map (·.record)) := h.map _
  have hok := hrecords.filter (·.isOk)
  refine ⟨hok.length_eq, ?_, (hok.map _).sum_nat⟩
  exact congrArg₂ (· - ·) hrecords.length_eq hok.length_eq

/-- Nor do the controls, where no id is converted twice. -/
theorem ConvertedDocument.controls_of_perm {cs cs' : List ConvertedJob} (h : cs.Perm cs')
    (hid : (cs.map ConvertedJob.id).Nodup) : (ofJobs cs).controls = (ofJobs cs').controls := by
  -- no entry replaces another, so both maps have the entries of all jobs
  have hentries : (entries cs).Perm (entries cs') := (h.map _).filter _
  have hid' : (cs'.map ConvertedJob.id).Nodup := (h.map _).nodup_iff.1 hid
  exact (ascending_controls cs).eq_of_perm (ascending_controls cs')
    ((controls_perm_entries hid).trans (hentries.trans (controls_perm_entries hid').symm))

/-- What the summaries `a` of `d` and `b` of the same transformers in the order of `d'` have to do
with each other. -/
structure Reordered (p : Policy) (d d' : Document Float) (a b : BatchSummary) : Prop where
  success : a.success = b.success
  failure : a.failure = b.failure
  conditions : a.conditions = b.conditions
  controls : a.converted.controls = b.converted.controls
  /-- A transformer has the same record at its old and its new place. -/
  record : ∀ (i k : Nat) (j : Job), d.jobs[i]? = some j → d'.jobs[k]? = some j →
    a.records[i]? = b.records[k]?
  before : d.InOrder p a
  after : d'.InOrder p b

namespace Document

variable {d d' : Document Float}

theorem convert_reordered (htwo : d.twoWinding.Perm d'.twoWinding)
    (hthree : d.threeWinding.Perm d'.threeWinding) (hid : d.ids.Nodup) (p : Policy) :
    Reordered p d d' (d.convert p) (d'.convert p) := by
  have hjobs := jobs_perm htwo hthree
  have hid' : d'.ids.Nodup := (hjobs.map Job.id).nodup_iff.1 hid
  have houtcomes := hjobs.map (Job.outcome p)
  obtain ⟨hsuccess, hfailure, hconditions⟩ := BatchSummary.ofOutcomes_counts houtcomes
  have hconverted := (Job.outcomes_nodup p [] d.jobs).1
  rw [Job.outcomes_of_nodup p [] hid fun _ _ => List.not_mem_nil] at hconverted
  have hcontrols := ConvertedDocument.controls_of_perm (houtcomes.filterMap _) hconverted
  rw [← convert_of_nodup hid, ← convert_of_nodup hid'] at hsuccess hfailure hconditions
  have hbefore := convert_inOrder hid p
  have hafter := convert_inOrder hid' p
  refine ⟨hsuccess, hfailure, hconditions, ?_, fun i k j hi hk => ?_, hbefore, hafter⟩
  · rw [convert_of_nodup hid, convert_of_nodup hid']
    exact hcontrols
  · rw [hbefore.records, hafter.records, List.getElem?_map, List.getElem?_map, hi, hk]

/-- The order of transformers with distinct ids shows in the order of records and models only. Under
any settings this holds of two runs that return; without a manifest both do return, and leave the
files alone. -/
theorem run_reordered (htwo : d.twoWinding.Perm d'.twoWinding)
    (hthree : d.threeWinding.Perm d'.threeWinding) (hid : d.ids.Nodup) (s : BatchSettings)
    (now now' : Timestamp) :
    (∀ {σ : Type} [FileSystem σ] (files files' : σ) (a b : BatchSummary),
      ((d.run s now : Attempt (StateM σ) BatchSummary).run.run files).1 = .ok a →
      ((d'.run s now' : Attempt (StateM σ) BatchSummary).run.run files').1 = .ok b →
        Reordered s.policy d d' a b) ∧
    (s.manifest = none → ∀ {σ : Type} [FileSystem σ] (files : σ),
      (d.run s now : Attempt (StateM σ) BatchSummary).run.run files =
        (.ok (d.convert s.policy), files) ∧
      (d'.run s now' : Attempt (StateM σ) BatchSummary).run.run files =
        (.ok (d'.convert s.policy), files)) := by
  constructor
  · intro σ _ files files' a b ha hb
    rw [eq_convert_of_run ha, eq_convert_of_run hb]
    exact convert_reordered htwo hthree hid s.policy
  · intro hs σ _ files
    exact ⟨run_of_no_manifest hs d now files, run_of_no_manifest hs d' now' files⟩

/-- Both lists turned round, each with a transformer that fails between two that do not. -/
theorem run_reordered_reverse :
    let control : Regulation Float := ⟨.voltage, 110, 1, none, true⟩
    let tap : Option (TapChangerSpec Float) :=
      some ⟨"R", .linearRatio ⟨-1, 1, 0⟩ 1, none, some control⟩
    let good : RawEnd Float := ⟨1, 10, 0, 0, 110, "1", 0, tap, none⟩
    let bad : RawEnd Float := ⟨1, 10, 0, 0, 0, "1", 0, tap, none⟩
    let d : Document Float :=
      ⟨[⟨"B", good, good⟩, ⟨"F", good, bad⟩, ⟨"A", good, good⟩],
        [⟨"D", [good, good, good]⟩, ⟨"E", [good]⟩, ⟨"C", [good, good, good]⟩]⟩
    let d' : Document Float := ⟨d.twoWinding.reverse, d.threeWinding.reverse⟩
    let s : BatchSettings := ⟨{}, none, "grid"⟩
    ∃ a b,
      (d.run s ⟨0, 0⟩ : Attempt (StateM FileTree) BatchSummary).run.run .empty = (.ok a, .empty) ∧
      (d'.run s ⟨1, 0⟩ : Attempt (StateM FileTree) BatchSummary).run.run .empty = (.ok b, .empty) ∧
      a.converted.twoWinding.map (·.id) = ["B", "A"] ∧
      b.converted.twoWinding.map (·.id) = ["A", "B"] ∧
      b.converted.controls.map Prod.fst = ["A", "B", "C", "D"] ∧ Reordered s.policy d d' a b := by
  intro control tap good bad d d' s
  have htwo : d.twoWinding.Perm d'.twoWinding := (List.reverse_perm _).symm
  have hthree : d.threeWinding.Perm d'.threeWinding := (List.reverse_perm _).symm
  obtain ⟨hreordered, hreturn⟩ := run_reordered htwo hthree (by decide) s ⟨0, 0⟩ ⟨1, 0⟩
  obtain ⟨ha, hb⟩ := hreturn rfl FileTree.empty
  exact ⟨_, _, ha, hb, by decide +kernel, by decide +kernel, by decide +kernel,
    hreordered FileTree.empty FileTree.empty _ _ (congrArg Prod.fst ha) (congrArg Prod.fst hb)⟩

end Document

end EquivalentCircuit
