import EquivalentCircuit.Files.Tree
import EquivalentCircuit.Proofs.Accounting
import EquivalentCircuit.Proofs.FirstOccurrence

/-! Transformers with an id that occurred before. A run of a document and a run of the document
without them convert the same models, with the same controls and conditions; the repeats show as
failed records and in no other way. The induction is on the jobs, with the seen ids general: a
repeat keeps its record and loses its conversion, and every other job has the outcome it would have
alone. -/

namespace EquivalentCircuit

namespace Job

variable (p : Policy) (seen : List String)

/-- Jobs with ids of their own do not see each other. -/
theorem outcomes_of_nodup {js : List Job} (hn : (js.map id).Nodup) (hs : ∀ j ∈ js, j.id ∉ seen) :
    outcomes p seen js = js.map (outcome p) := by
  induction js generalizing seen with
  | nil => rfl
  | cons j js ih =>
    rw [List.map_cons, List.nodup_cons] at hn
    have hrest : ∀ k ∈ js, k.id ∉ j.id :: seen := by
      intro k hk hm
      rcases List.mem_cons.1 hm with he | hm
      · exact hn.1 (he ▸ List.mem_map_of_mem hk)
      · exact hs k (List.mem_cons_of_mem _ hk) hm
    rw [outcomes, List.map_cons, outcomeAfter_of_not_mem p (hs j List.mem_cons_self),
      ih _ hn.2 hrest]

theorem outcomes_firsts (js : List Job) :
    outcomes p [] (firsts id [] js) = (firsts id [] js).map (outcome p) :=
  outcomes_of_nodup p [] (firsts_nodup [] js).1 (firsts_nodup [] js).2

/-- The outcomes of first occurrences are those the jobs have alone. -/
theorem firsts_outcomes (js : List Job) :
    firsts (·.record.id) seen (outcomes p seen js) = (firsts id seen js).map (outcome p) := by
  induction js generalizing seen with
  | nil => rfl
  | cons j js ih =>
    have hid := (outcomeAfter_key p seen j).1
    by_cases h : j.id ∈ seen
    · rw [outcomes, firsts_cons_of_mem (hid ▸ h), firsts_cons_of_mem h, hid, ih]
    · rw [outcomes, firsts_cons_of_not_mem (hid ▸ h), firsts_cons_of_not_mem h, hid, ih,
        List.map_cons, outcomeAfter_of_not_mem p h]

/-- What is collected from a run comes from first occurrences, if nothing is collected from
repeats. -/
theorem filterMap_outcomes {γ : Type} (f : Outcome → Option γ)
    (hf : ∀ r : ConversionRecord, f ⟨r.asDuplicate, none⟩ = none) (js : List Job) :
    (outcomes p seen js).filterMap f = ((firsts id seen js).map (outcome p)).filterMap f := by
  induction js generalizing seen with
  | nil => rfl
  | cons j js ih =>
    by_cases h : j.id ∈ seen
    · rw [outcomes, outcomeAfter_of_mem p h, List.filterMap_cons_none (hf _), firsts_cons_of_mem h,
        ih]
    · rw [outcomes, outcomeAfter_of_not_mem p h, firsts_cons_of_not_mem h, List.map_cons,
        List.filterMap_cons, List.filterMap_cons, ih]

end Job

def Outcome.okRecord? (o : Outcome) : Option ConversionRecord :=
  if o.record.isOk then some o.record else none

theorem filter_isOk_eq (os : List Outcome) :
    (os.map (·.record)).filter (·.isOk) = os.filterMap Outcome.okRecord? := by
  induction os with
  | nil => rfl
  | cons o os ih =>
    by_cases h : o.record.isOk = true <;> simp [Outcome.okRecord?, h, ih]

namespace Document

variable (d : Document Float)

/-- The document without the transformers whose id occurs before them, two-winding ones first. -/
def distinct : Document Float where
  twoWinding := firsts (·.id) [] d.twoWinding
  threeWinding := firsts (·.id) (d.twoWinding.map (·.id)) d.threeWinding

def ids : List String := d.jobs.map Job.id

theorem distinct_jobs : d.distinct.jobs = firsts Job.id [] d.jobs := by
  have htwo : firsts Job.id [] (d.twoWinding.map Job.two) =
      (firsts (·.id) [] d.twoWinding).map Job.two :=
    map_firsts Job.two (fun _ => rfl) _
  have hthree (seen : List String) : firsts Job.id seen (d.threeWinding.map Job.three) =
      (firsts (·.id) seen d.threeWinding).map Job.three :=
    map_firsts Job.three (fun _ => rfl) _
  have hseen : ∀ k, k ∈ ((d.twoWinding.map Job.two).map Job.id).reverse ++ [] ↔
      k ∈ d.twoWinding.map (·.id) := by
    intro k
    rw [List.append_nil, List.mem_reverse, List.map_map]
    rfl
  rw [jobs, jobs, firsts_append, htwo, firsts_congr hseen, hthree]
  rfl

end Document

/-- What the summary `s` of a document and the summary `s'` of its distinct transformers have to do
with each other. -/
structure RepeatsOnlyFail (d : Document Float) (s s' : BatchSummary) : Prop where
  converted : s'.converted = s.converted
  success : s'.success = s.success
  conditions : s'.conditions = s.conditions
  records : s'.records = (firstPositions d.ids).filterMap (s.records[·]?)
  failure : s.failure = s'.failure + repeatCount d.ids

theorem Document.ids_of_records (d : Document Float) (p : Policy) :
    (d.convert p).records.map (·.id) = d.ids := by
  have h := congrArg (List.map Prod.fst) (Job.outcomes_key p [] d.jobs)
  rw [List.map_map, List.map_map] at h
  change ((Job.outcomes p [] d.jobs).map (·.record)).map (·.id) = d.jobs.map Job.id
  rw [List.map_map]
  exact h

theorem Document.convert_repeatsOnlyFail (d : Document Float) (p : Policy) :
    RepeatsOnlyFail d (d.convert p) (d.distinct.convert p) := by
  set os := Job.outcomes p [] d.jobs with hos
  set fs := (firsts Job.id [] d.jobs).map (Job.outcome p) with hfs
  have hconvert : d.convert p = .ofOutcomes os := rfl
  have hdistinct : d.distinct.convert p = .ofOutcomes fs := by
    rw [Document.convert, d.distinct_jobs, Job.outcomes_firsts]
  have hconverted : os.filterMap (·.converted) = fs.filterMap (·.converted) :=
    Job.filterMap_outcomes p [] _ (fun _ => rfl) d.jobs
  have hok : (os.map (·.record)).filter (·.isOk) = (fs.map (·.record)).filter (·.isOk) := by
    rw [filter_isOk_eq, filter_isOk_eq]
    refine Job.filterMap_outcomes p [] _ (fun r => ?_) d.jobs
    rw [Outcome.okRecord?, ConversionRecord.asDuplicate_isOk]
    rfl
  have hrecords : fs.map (·.record) = firsts (·.id) [] (os.map (·.record)) := by
    rw [map_firsts Outcome.record (fun _ => rfl), Job.firsts_outcomes]
  refine ⟨?_, ?_, ?_, ?_, ?_⟩
  · rw [hconvert, hdistinct]
    simp only [BatchSummary.ofOutcomes, hconverted]
  · rw [hconvert, hdistinct]
    simp only [BatchSummary.ofOutcomes, hok]
  · rw [hconvert, hdistinct]
    simp only [BatchSummary.ofOutcomes, hok]
  · rw [← d.ids_of_records p, ← firsts_eq_positions, hconvert, hdistinct]
    exact hrecords
  · have hjobs : (firsts Job.id [] d.jobs).length + repeatCount d.ids = d.jobs.length :=
      length_firsts_add_repeatCount d.jobs
    have hle := List.length_filter_le (·.isOk) (fs.map (·.record))
    rw [hconvert, hdistinct]
    simp only [BatchSummary.ofOutcomes, hok]
    simp only [List.length_map, hfs, hos, Job.outcomes_length] at hle ⊢
    omega

/-- The distinct transformers are the jobs at the positions where an id is new. Under any settings, a
run that returns differs from one of the distinct transformers that returns by failed records only;
without a manifest both do return, and leave the files alone. -/
theorem Document.run_repeatsOnlyFail (d : Document Float) (s : BatchSettings)
    (now now' : Timestamp) :
    d.distinct.jobs = (firstPositions d.ids).filterMap (d.jobs[·]?) ∧
    (∀ {σ : Type} [FileSystem σ] (files files' : σ) (a b : BatchSummary),
      ((d.run s now : Attempt (StateM σ) BatchSummary).run.run files).1 = .ok a →
      ((d.distinct.run s now' : Attempt (StateM σ) BatchSummary).run.run files').1 = .ok b →
        RepeatsOnlyFail d a b) ∧
    (s.manifest = none → ∀ {σ : Type} [FileSystem σ] (files : σ),
      (d.run s now : Attempt (StateM σ) BatchSummary).run.run files =
        (.ok (d.convert s.policy), files) ∧
      (d.distinct.run s now' : Attempt (StateM σ) BatchSummary).run.run files =
        (.ok (d.distinct.convert s.policy), files)) := by
  refine ⟨?_, ?_, ?_⟩
  · rw [d.distinct_jobs]
    exact firsts_eq_positions d.jobs
  · intro σ _ files files' a b ha hb
    rw [eq_convert_of_run ha, eq_convert_of_run hb]
    exact d.convert_repeatsOnlyFail s.policy
  · intro hs σ _ files
    obtain ⟨policy, manifest, label⟩ := s
    cases hs
    exact ⟨rfl, rfl⟩

/-- A first occurrence that fails, repeats of it in both lists and a repeat of one that succeeds. -/
theorem Document.run_repeatsOnlyFail_both_lists :
    let good : RawEnd Float := ⟨1, 10, 0, 0, 110, "1", 0, none, none⟩
    let bad : RawEnd Float := ⟨1, 10, 0, 0, 0, "1", 0, none, none⟩
    let d : Document Float :=
      ⟨[⟨"A", good, bad⟩, ⟨"B", good, good⟩, ⟨"A", good, good⟩],
        [⟨"B", [good, good, good]⟩, ⟨"C", [good, good, good]⟩, ⟨"A", [good]⟩]⟩
    let s : BatchSettings := ⟨{}, none, "grid"⟩
    firstPositions d.ids = [0, 1, 4] ∧ repeatCount d.ids = 3 ∧ ∃ a b,
      (d.run s ⟨0, 0⟩ : Attempt (StateM FileTree) BatchSummary).run.run .empty = (.ok a, .empty) ∧
      (d.distinct.run s ⟨1, 0⟩ : Attempt (StateM FileTree) BatchSummary).run.run .empty =
        (.ok b, .empty) ∧
      RepeatsOnlyFail d a b := by
  intro good bad d s
  obtain ⟨-, hfail, hreturn⟩ := run_repeatsOnlyFail d s ⟨0, 0⟩ ⟨1, 0⟩
  obtain ⟨ha, hb⟩ := hreturn rfl FileTree.empty
  exact ⟨by decide, by decide, _, _, ha, hb,
    hfail FileTree.empty FileTree.empty _ _ (congrArg Prod.fst ha) (congrArg Prod.fst hb)⟩

end EquivalentCircuit
