import Mathlib.Algebra.GroupWithZero.Nat
import Mathlib.Data.List.Perm.Basic
import EquivalentCircuit.Batch.Run
import EquivalentCircuit.Proofs.Attempts
import EquivalentCircuit.Proofs.Building

/-! The books of a batch. The outcomes of jobs are a fold with the ids seen so far; each fact about a
whole run is one about `Job.outcomeAfter`, carried through the fold with the seen ids general. -/

namespace EquivalentCircuit

namespace Job

/-- Both steps of the job succeed: its values are accepted and its ends convert. -/
def Succeeds (p : Policy) : Job → Prop
  | two raw => ∃ ends c, raw.build = .ok ends ∧ ends.convert p = .ok c
  | three raw => ∃ ends c, raw.build = .ok ends ∧ ends.convert p = .ok c

theorem convert_two (p : Policy) (raw : RawTwoWinding Float) :
    (two raw).convert p = raw.build >>= fun ends => (ends.convert p).map .two :=
  rfl

theorem convert_three (p : Policy) (raw : RawThreeWinding Float) :
    (three raw).convert p = raw.build >>= fun ends => (ends.convert p).map .three :=
  rfl

theorem convert_two_eq_ok {p : Policy} {raw : RawTwoWinding Float} {c : ConvertedJob} :
    (two raw).convert p = .ok c ↔
      ∃ ends, raw.build = .ok ends ∧ ∃ d, ends.convert p = .ok d ∧ c = .two d := by
  simp only [convert_two, Checked.bind_eq_ok, Checked.map_eq_ok]

theorem convert_three_eq_ok {p : Policy} {raw : RawThreeWinding Float} {c : ConvertedJob} :
    (three raw).convert p = .ok c ↔
      ∃ ends, raw.build = .ok ends ∧ ∃ d, ends.convert p = .ok d ∧ c = .three d := by
  simp only [convert_three, Checked.bind_eq_ok, Checked.map_eq_ok]

theorem succeeds_iff {p : Policy} {j : Job} : j.Succeeds p ↔ ∃ c, j.convert p = .ok c := by
  cases j with
  | two raw =>
    simp only [convert_two_eq_ok]
    exact ⟨fun ⟨e, d, he, hd⟩ => ⟨_, e, he, d, hd, rfl⟩, fun ⟨_, e, he, d, hd, _⟩ => ⟨e, d, he, hd⟩⟩
  | three raw =>
    simp only [convert_three_eq_ok]
    exact ⟨fun ⟨e, d, he, hd⟩ => ⟨_, e, he, d, hd, rfl⟩, fun ⟨_, e, he, d, hd, _⟩ => ⟨e, d, he, hd⟩⟩

end Job

theorem Job.id_of_convert {p : Policy} {j : Job} {c : ConvertedJob} (h : j.convert p = .ok c) :
    c.id = j.id := by
  cases j with
  | two raw =>
    obtain ⟨ends, hb, d, hd, rfl⟩ := convert_two_eq_ok.1 h
    obtain ⟨-, s, -, rfl⟩ := TwoWindingEnds.convert_eq_ok.1 hd
    exact RawTwoWinding.id_of_build hb
  | three raw =>
    obtain ⟨ends, hb, d, hd, rfl⟩ := convert_three_eq_ok.1 h
    obtain ⟨-, s, -, rfl⟩ := ThreeWindingEnds.convert_eq_ok.1 hd
    exact RawThreeWinding.id_of_build hb

theorem ConversionRecord.asDuplicate_isOk (r : ConversionRecord) : r.asDuplicate.isOk = false := by
  simp [asDuplicate, isOk]

namespace Job

variable (p : Policy) (seen : List String) (j : Job)

/-! One job after jobs with the ids `seen`. -/

theorem outcome_of_ok {p : Policy} {j : Job} {c : ConvertedJob} (h : j.convert p = .ok c) :
    j.outcome p = ⟨⟨j.id, j.kind, "ok", none, c.diagnostics⟩, some c⟩ := by
  rw [outcome, h]

theorem outcome_of_error {p : Policy} {j : Job} {e : Malformed Float} (h : j.convert p = .error e) :
    j.outcome p =
      ⟨⟨j.id, j.kind, "error", some e.message, [.error .malformedInput e.message j.id]⟩, none⟩ := by
  rw [outcome, h]

theorem outcome_key : (j.outcome p).record.id = j.id ∧ (j.outcome p).record.kind = j.kind := by
  cases h : j.convert p with
  | ok c => rw [outcome_of_ok h]; exact ⟨rfl, rfl⟩
  | error e => rw [outcome_of_error h]; exact ⟨rfl, rfl⟩

theorem outcomeAfter_of_mem {seen : List String} {j : Job} (h : j.id ∈ seen) :
    j.outcomeAfter p seen = ⟨(j.outcome p).record.asDuplicate, none⟩ := by
  rw [outcomeAfter, if_pos (List.contains_iff_mem.2 h)]

theorem outcomeAfter_of_not_mem {seen : List String} {j : Job} (h : j.id ∉ seen) :
    j.outcomeAfter p seen = j.outcome p := by
  rw [outcomeAfter, if_neg (fun hc => h (List.contains_iff_mem.1 hc))]

theorem outcomeAfter_key :
    (j.outcomeAfter p seen).record.id = j.id ∧ (j.outcomeAfter p seen).record.kind = j.kind := by
  by_cases h : j.id ∈ seen
  · rw [outcomeAfter_of_mem p h]; exact outcome_key p j
  · rw [outcomeAfter_of_not_mem p h]; exact outcome_key p j

theorem outcomeAfter_isOk :
    (j.outcomeAfter p seen).record.isOk = true ↔ j.id ∉ seen ∧ j.Succeeds p := by
  rw [succeeds_iff]
  by_cases h : j.id ∈ seen
  · rw [outcomeAfter_of_mem p h, ConversionRecord.asDuplicate_isOk]
    simp [h]
  · rw [outcomeAfter_of_not_mem p h]
    cases hc : j.convert p with
    | ok c => rw [outcome_of_ok hc]; simp [h, ConversionRecord.isOk]
    | error e => rw [outcome_of_error hc]; simp [ConversionRecord.isOk]

theorem outcomeAfter_converted :
    (j.outcomeAfter p seen).converted =
      if (j.outcomeAfter p seen).record.isOk then (j.convert p).toOption else none := by
  by_cases h : j.id ∈ seen
  · rw [outcomeAfter_of_mem p h, ConversionRecord.asDuplicate_isOk]
    rfl
  · rw [outcomeAfter_of_not_mem p h]
    cases hc : j.convert p with
    | ok c => rw [outcome_of_ok hc]; rfl
    | error e => rw [outcome_of_error hc]; rfl

/-- A record that is not ok says why, in its text and as an issue on its own transformer. -/
theorem outcomeAfter_failed (h : (j.outcomeAfter p seen).record.isOk = false) :
    ∃ message, (j.outcomeAfter p seen).record.error = some message ∧
      Issue.error .malformedInput message j.id ∈ (j.outcomeAfter p seen).record.diagnostics := by
  by_cases hs : j.id ∈ seen
  · rw [outcomeAfter_of_mem p hs]
    refine ⟨_, rfl, ?_⟩
    rw [ConversionRecord.asDuplicate, (outcome_key p j).1]
    exact List.mem_append_right _ (List.mem_singleton_self _)
  · rw [outcomeAfter_of_not_mem p hs] at h ⊢
    cases hc : j.convert p with
    | ok c => rw [outcome_of_ok hc] at h; simp [ConversionRecord.isOk] at h
    | error e => rw [outcome_of_error hc]; exact ⟨_, rfl, List.mem_singleton_self _⟩

/-! A whole run. -/

theorem outcomes_key (js : List Job) :
    (outcomes p seen js).map (fun o => (o.record.id, o.record.kind)) =
      js.map fun j => (j.id, j.kind) := by
  induction js generalizing seen with
  | nil => rfl
  | cons j js ih =>
    rw [outcomes, List.map_cons, List.map_cons, ih, (outcomeAfter_key p seen j).1,
      (outcomeAfter_key p seen j).2]

theorem outcomes_length (js : List Job) : (outcomes p seen js).length = js.length := by
  simpa using congrArg List.length (outcomes_key p seen js)

/-- The outcome at a place depends on the job there and on the ids before it. -/
theorem outcomes_getElem? (js : List Job) (i : Nat) :
    (outcomes p seen js)[i]? =
      js[i]?.map (outcomeAfter p (((js.take i).map id).reverse ++ seen)) := by
  induction js generalizing seen i with
  | nil => rfl
  | cons j js ih =>
    cases i with
    | zero => rfl
    | succ i =>
      rw [outcomes, List.getElem?_cons_succ, ih, List.getElem?_cons_succ, List.take_succ_cons,
        List.map_cons, List.reverse_cons, List.append_assoc]
      rfl

theorem mem_outcomes {js : List Job} {o : Outcome} (h : o ∈ outcomes p seen js) :
    ∃ (j : Job) (before : List String), o = j.outcomeAfter p before := by
  obtain ⟨i, hi⟩ := List.mem_iff_getElem?.1 h
  rw [outcomes_getElem?, Option.map_eq_some_iff] at hi
  obtain ⟨j, -, rfl⟩ := hi
  exact ⟨j, _, rfl⟩

theorem outcomes_isOk {js : List Job} {i : Nat} {j : Job} {o : Outcome} (hj : js[i]? = some j)
    (ho : (outcomes p [] js)[i]? = some o) :
    o.record.isOk = true ↔ (∀ k < i, ∀ j', js[k]? = some j' → j'.id ≠ j.id) ∧ j.Succeeds p := by
  rw [outcomes_getElem?, hj, Option.map_some, Option.some_inj] at ho
  rw [← ho, outcomeAfter_isOk, List.append_nil, List.mem_reverse, List.mem_map]
  refine and_congr_left fun _ => ⟨fun h k hk j' hj' he => h ⟨j', ?_, he⟩, ?_⟩
  · exact List.mem_iff_getElem?.2 ⟨k, by rw [List.getElem?_take_of_lt hk, hj']⟩
  · rintro h ⟨j', hm, he⟩
    obtain ⟨k, hk⟩ := List.mem_iff_getElem?.1 hm
    rw [List.getElem?_take] at hk
    split at hk
    · exact h k ‹_› j' hk he
    · cases hk

/-- What is kept of a run are the conversions of the jobs whose record is ok. -/
theorem outcomes_converted {β : Type} (keep : ConvertedJob → Option β) (js : List Job) :
    ((outcomes p seen js).filterMap (·.converted)).filterMap keep =
      (js.zip ((outcomes p seen js).map (·.record))).filterMap fun x =>
        if x.2.isOk then (x.1.convert p).toOption.bind keep else none := by
  induction js generalizing seen with
  | nil => rfl
  | cons j js ih =>
    simp only [List.filterMap_filterMap] at ih ⊢
    rw [outcomes, List.map_cons, List.zip_cons_cons, List.filterMap_cons, List.filterMap_cons, ih,
      outcomeAfter_converted]
    by_cases h : (j.outcomeAfter p seen).record.isOk = true
    · simp only [h, if_true]
    · simp only [h, if_false, Bool.false_eq_true, Option.bind_none]

theorem outcomeAfter_isSome :
    (j.outcomeAfter p seen).converted.isSome = (j.outcomeAfter p seen).record.isOk := by
  rw [outcomeAfter_converted]
  by_cases h : (j.outcomeAfter p seen).record.isOk = true
  · obtain ⟨c, hc⟩ := succeeds_iff.1 ((outcomeAfter_isOk p seen j).1 h).2
    rw [if_pos h, hc, h]
    rfl
  · rw [if_neg h, Bool.not_eq_true _ |>.mp h]
    rfl

theorem convert_of_outcomeAfter {p : Policy} {seen : List String} {j : Job} {c : ConvertedJob}
    (h : (j.outcomeAfter p seen).converted = some c) : j.convert p = .ok c ∧ j.id ∉ seen := by
  have hok : (j.outcomeAfter p seen).record.isOk = true := by
    rw [← outcomeAfter_isSome, h]
    rfl
  obtain ⟨hs, hc⟩ := (outcomeAfter_isOk p seen j).1 hok
  obtain ⟨c', hc'⟩ := succeeds_iff.1 hc
  rw [outcomeAfter_converted, if_pos hok, hc'] at h
  cases h
  exact ⟨hc', hs⟩

theorem id_of_outcomeAfter {p : Policy} {seen : List String} {j : Job} {c : ConvertedJob}
    (h : (j.outcomeAfter p seen).converted = some c) : c.id = j.id ∧ j.id ∉ seen :=
  (convert_of_outcomeAfter h).imp_left id_of_convert

/-- What a run converts is the conversion of one of its jobs. -/
theorem exists_convert_of_mem_outcomes {js : List Job} {c : ConvertedJob}
    (h : c ∈ (outcomes p seen js).filterMap (·.converted)) : ∃ j : Job, j.convert p = .ok c := by
  obtain ⟨o, ho, hc⟩ := List.mem_filterMap.1 h
  obtain ⟨j, before, rfl⟩ := mem_outcomes p seen ho
  exact ⟨j, (convert_of_outcomeAfter hc).1⟩

theorem outcomes_converted_length (js : List Job) :
    ((outcomes p seen js).filterMap (·.converted)).length =
      (((outcomes p seen js).map (·.record)).filter (·.isOk)).length := by
  rw [List.length_filterMap_eq_countP, ← List.countP_eq_length_filter, List.countP_map]
  refine List.countP_congr fun o ho => ?_
  obtain ⟨j, before, rfl⟩ := mem_outcomes p seen ho
  rw [outcomeAfter_isSome]
  rfl

/-- No id is converted twice, and none that was seen before. -/
theorem outcomes_nodup (js : List Job) :
    (((outcomes p seen js).filterMap (·.converted)).map ConvertedJob.id).Nodup ∧
      ∀ i ∈ ((outcomes p seen js).filterMap (·.converted)).map ConvertedJob.id, i ∉ seen := by
  induction js generalizing seen with
  | nil => exact ⟨List.nodup_nil, fun _ h => nomatch h⟩
  | cons j js ih =>
    obtain ⟨hn, hs⟩ := ih (j.id :: seen)
    have hrest := fun i hi hm => hs i hi (List.mem_cons_of_mem j.id hm)
    rw [outcomes, List.filterMap_cons]
    cases hc : (j.outcomeAfter p seen).converted with
    | none => exact ⟨hn, hrest⟩
    | some c =>
      obtain ⟨he, hj⟩ := id_of_outcomeAfter hc
      rw [List.map_cons, he]
      refine ⟨List.nodup_cons.2 ⟨fun hm => hs _ hm List.mem_cons_self, hn⟩, fun i hi => ?_⟩
      rcases List.mem_cons.1 hi with rfl | hi
      · exact hj
      · exact hrest i hi

end Job

/-- The two lists of models are the converted jobs, each under its kind. -/
theorem ConvertedDocument.ofJobs_perm {β : Type} {f : ConvertedJob → β}
    {two : TwoWindingModel Float → β} {three : ThreeWindingModel Float → β}
    (htwo : ∀ c, f (.two c) = two c.model) (hthree : ∀ c, f (.three c) = three c.model)
    (cs : List ConvertedJob) :
    ((ofJobs cs).twoWinding.map two ++ (ofJobs cs).threeWinding.map three).Perm (cs.map f) := by
  induction cs with
  | nil => exact .refl _
  | cons c cs ih =>
    cases c with
    | two c =>
      rw [List.map_cons, htwo]
      exact ih.cons (two c.model)
    | three c =>
      rw [List.map_cons, hthree]
      exact List.perm_middle.trans (ih.cons (three c.model))

/-- The two lists of models carry the ids of the converted jobs. -/
theorem ConvertedDocument.ofJobs_ids (cs : List ConvertedJob) :
    ((ofJobs cs).twoWinding.map (·.id) ++ (ofJobs cs).threeWinding.map (·.id)).Perm
      (cs.map ConvertedJob.id) :=
  ofJobs_perm (fun _ => rfl) (fun _ => rfl) cs

def Job.twoWindingModel? (p : Policy) (j : Job) : Option (TwoWindingModel Float) :=
  (j.convert p).toOption.bind ConvertedJob.twoWinding?

def Job.threeWindingModel? (p : Policy) (j : Job) : Option (ThreeWindingModel Float) :=
  (j.convert p).toOption.bind ConvertedJob.threeWinding?

/-- What a summary has to say of a document. -/
structure Accounted (p : Policy) (d : Document Float) (s : BatchSummary) : Prop where
  size : s.records.length = d.size
  keys : s.records.map (fun r => (r.id, r.kind)) =
    d.twoWinding.map (fun t => (t.id, TransformerKind.twoWinding)) ++
      d.threeWinding.map fun t => (t.id, TransformerKind.threeWinding)
  ok_iff : ∀ (i : Nat) (j : Job) (r : ConversionRecord), d.jobs[i]? = some j →
    s.records[i]? = some r →
      (r.isOk = true ↔
        (∀ k < i, ∀ j' : Job, d.jobs[k]? = some j' → j'.id ≠ j.id) ∧ j.Succeeds p)
  success : s.success = s.records.countP (·.isOk)
  total : s.success + s.failure = s.records.length
  twoWinding : s.converted.twoWinding =
    (d.jobs.zip s.records).filterMap fun x => if x.2.isOk then x.1.twoWindingModel? p else none
  threeWinding : s.converted.threeWinding =
    (d.jobs.zip s.records).filterMap fun x => if x.2.isOk then x.1.threeWindingModel? p else none
  models : s.converted.twoWinding.length + s.converted.threeWinding.length = s.success
  nodup : (s.converted.twoWinding.map (·.id) ++ s.converted.threeWinding.map (·.id)).Nodup
  conditions : s.conditions = ((s.records.filter (·.isOk)).map (·.diagnostics.length)).sum
  failed : ∀ r ∈ s.records, r.isOk = false →
    ∃ message, r.error = some message ∧
      Issue.error .malformedInput message r.id ∈ r.diagnostics

theorem Document.jobs_key (d : Document Float) :
    d.jobs.map (fun j => (j.id, j.kind)) =
      d.twoWinding.map (fun t => (t.id, TransformerKind.twoWinding)) ++
        d.threeWinding.map fun t => (t.id, TransformerKind.threeWinding) := by
  rw [jobs, List.map_append, List.map_map, List.map_map]
  rfl

theorem Document.convert_accounted (d : Document Float) (p : Policy) :
    Accounted p d (d.convert p) := by
  set os := Job.outcomes p [] d.jobs with hos
  have hrecords : (d.convert p).records = os.map (·.record) := rfl
  have hsuccess : (d.convert p).success = ((os.map (·.record)).filter (·.isOk)).length := rfl
  have hids := ConvertedDocument.ofJobs_ids (os.filterMap (·.converted))
  refine ⟨?_, ?_, ?_, ?_, ?_, ?_, ?_, ?_, ?_, ?_, ?_⟩
  · rw [hrecords, List.length_map, Job.outcomes_length, jobs, List.length_append, List.length_map,
      List.length_map, size]
  · rw [hrecords, List.map_map, ← d.jobs_key]
    exact Job.outcomes_key p [] d.jobs
  · intro i j r hj hr
    rw [hrecords, List.getElem?_map, Option.map_eq_some_iff] at hr
    obtain ⟨o, ho, rfl⟩ := hr
    exact Job.outcomes_isOk p hj ho
  · rw [hsuccess, hrecords, List.countP_eq_length_filter]
  · exact Nat.add_sub_cancel' (List.length_filter_le _ _)
  · exact Job.outcomes_converted p [] ConvertedJob.twoWinding? d.jobs
  · exact Job.outcomes_converted p [] ConvertedJob.threeWinding? d.jobs
  · rw [hsuccess, ← Job.outcomes_converted_length, ← List.length_map ConvertedJob.id,
      ← hids.length_eq, List.length_append, List.length_map, List.length_map]
    rfl
  · exact hids.nodup_iff.2 (Job.outcomes_nodup p [] d.jobs).1
  · rfl
  · intro r hr hf
    obtain ⟨o, ho, rfl⟩ := List.mem_map.1 hr
    obtain ⟨j, before, rfl⟩ := Job.mem_outcomes p [] ho
    rw [(Job.outcomeAfter_key p before j).1]
    exact Job.outcomeAfter_failed p before j hf

theorem Document.eq_convert_of_run {σ : Type} [FileSystem σ] {d : Document Float}
    {s : BatchSettings} {now : Timestamp} {files : σ} {a : BatchSummary}
    (h : ((d.run s now : Attempt (StateM σ) BatchSummary).run.run files).1 = .ok a) :
    a = d.convert s.policy := by
  obtain ⟨policy, manifest, label⟩ := s
  cases manifest with
  | none =>
    cases h
    rfl
  | some path => exact Attempt.eq_of_bind_pure h

/-- Without a manifest a run always returns, and leaves the files alone. -/
theorem Document.run_of_no_manifest {s : BatchSettings} (h : s.manifest = none)
    (d : Document Float) (now : Timestamp) {σ : Type} [FileSystem σ] (files : σ) :
    (d.run s now : Attempt (StateM σ) BatchSummary).run.run files =
      (.ok (d.convert s.policy), files) := by
  obtain ⟨policy, manifest, label⟩ := s
  cases h
  rfl

/-- A run without manifest gives the summary whatever is in the files, leaves them as they are, and
the summary accounts for the document. -/
theorem Document.run_accounted (d : Document Float) (p : Policy) (label : String) (now : Timestamp) :
    (∀ {σ : Type} [FileSystem σ] (files : σ),
      (d.run ⟨p, none, label⟩ now : Attempt (StateM σ) BatchSummary).run.run files =
        (.ok (d.convert p), files)) ∧
      Accounted p d (d.convert p) :=
  ⟨fun _ => rfl, d.convert_accounted p⟩

end EquivalentCircuit
