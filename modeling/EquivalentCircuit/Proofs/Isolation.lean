import EquivalentCircuit.Files.Tree
import EquivalentCircuit.Proofs.Controls

/-! A transformer changed in place. Two documents that differ in one transformer, not in its id,
have the same ids at all places, so every other job is met with the same ids before it and has the
same outcome; what the changed one contributes to the models and the controls stays its own. -/

namespace EquivalentCircuit

/-- The documents are the same but for the content of one transformer of the given id; its job is at
place `k`. -/
inductive Document.DiffersAt (name : String) : Nat → Document Float → Document Float → Prop
  | two (before after : List (RawTwoWinding Float)) {t u : RawTwoWinding Float}
      {three : List (RawThreeWinding Float)} (ht : t.id = name) (hu : u.id = name) :
      DiffersAt name before.length ⟨before ++ t :: after, three⟩ ⟨before ++ u :: after, three⟩
  | three {two : List (RawTwoWinding Float)} (before after : List (RawThreeWinding Float))
      {t u : RawThreeWinding Float} (ht : t.id = name) (hu : u.id = name) :
      DiffersAt name (two.length + before.length)
        ⟨two, before ++ t :: after⟩ ⟨two, before ++ u :: after⟩

/-- What the job at place `k` contributes to a run with the given records. -/
def Document.contribution? (p : Policy) (d : Document Float) (records : List ConversionRecord)
    (k : Nat) : Option ConvertedJob := do
  let j ← d.jobs[k]?
  let r ← records[k]?
  if r.isOk then (j.convert p).toOption else none

/-- The lists are the same after `x` and `y` are taken out at one place. -/
def SameApart {β : Type} (x y : Option β) (l m : List β) : Prop :=
  ∃ before after, l = before ++ x.toList ++ after ∧ m = before ++ y.toList ++ after

/-- The runs `a` of `d` and `b` of `d'` have nothing in common with the transformer at place `k`. -/
structure Isolated (p : Policy) (name : String) (k : Nat) (d d' : Document Float)
    (a b : BatchSummary) : Prop where
  size : a.records.length = b.records.length
  records : ∀ i ≠ k, a.records[i]? = b.records[i]?
  twoWinding : SameApart ((d.contribution? p a.records k).bind ConvertedJob.twoWinding?)
    ((d'.contribution? p b.records k).bind ConvertedJob.twoWinding?)
    a.converted.twoWinding b.converted.twoWinding
  threeWinding : SameApart ((d.contribution? p a.records k).bind ConvertedJob.threeWinding?)
    ((d'.contribution? p b.records k).bind ConvertedJob.threeWinding?)
    a.converted.threeWinding b.converted.threeWinding
  controls : ∀ id ≠ name, a.converted.controls.lookup id = b.converted.controls.lookup id

theorem Document.DiffersAt.jobs {name : String} {k : Nat} {d d' : Document Float}
    (h : DiffersAt name k d d') :
    ∃ (before after : List Job) (j j' : Job), before.length = k ∧ j.id = name ∧ j'.id = name ∧
      d.jobs = before ++ j :: after ∧ d'.jobs = before ++ j' :: after := by
  cases h with
  | @two before after t u three ht hu =>
    refine ⟨before.map .two, after.map .two ++ three.map .three, .two t, .two u,
      List.length_map _, ht, hu, ?_, ?_⟩ <;>
    simp [Document.jobs]
  | @three two before after t u ht hu =>
    refine ⟨two.map .two ++ before.map .three, after.map .three, .three t, .three u,
      by simp, ht, hu, ?_, ?_⟩ <;>
    simp [Document.jobs]

/-- A run goes on with the ids of the jobs it has met. -/
theorem Job.outcomes_append (p : Policy) (seen : List String) (js ks : List Job) :
    outcomes p seen (js ++ ks) =
      outcomes p seen js ++ outcomes p ((js.map id).reverse ++ seen) ks := by
  induction js generalizing seen with
  | nil => rfl
  | cons j js ih =>
    rw [List.cons_append, outcomes, outcomes, ih, List.map_cons, List.reverse_cons,
      List.append_assoc, List.cons_append]
    rfl

theorem Job.outcomes_middle (p : Policy) (before after : List Job) (j : Job) :
    outcomes p [] (before ++ j :: after) =
      outcomes p [] before ++ j.outcomeAfter p (before.map id).reverse ::
        outcomes p (j.id :: (before.map id).reverse) after := by
  rw [outcomes_append, List.append_nil, outcomes]

theorem getElem?_middle_of_ne {β : Type} (before after : List β) (b c : β) {i : Nat}
    (h : i ≠ before.length) : (before ++ b :: after)[i]? = (before ++ c :: after)[i]? := by
  rcases Nat.lt_or_gt_of_ne h with h | h
  · rw [List.getElem?_append_left h, List.getElem?_append_left h]
  · obtain ⟨n, rfl⟩ := Nat.exists_eq_add_of_lt h
    simp only [Nat.add_assoc, List.getElem?_append_right (Nat.le_add_right _ _),
      Nat.add_sub_cancel_left, List.getElem?_cons_succ]

theorem filterMap_middle {β γ : Type} (f : β → Option γ) (before after : List β) (x : Option β) :
    (before ++ x.toList ++ after).filterMap f =
      before.filterMap f ++ (x.bind f).toList ++ after.filterMap f := by
  rw [List.filterMap_append, List.filterMap_append]
  cases x with
  | none => rfl
  | some b =>
    rw [Option.toList_some, Option.bind_some, List.filterMap_cons]
    cases f b with
    | none => rfl
    | some c => rfl

theorem filterMap_converted_middle (before after : List Outcome) (o : Outcome) :
    (before ++ o :: after).filterMap (·.converted) =
      before.filterMap (·.converted) ++ o.converted.toList ++ after.filterMap (·.converted) := by
  rw [List.append_cons]
  exact filterMap_middle _ before after (some o)

theorem SameApart.filterMap {β γ : Type} {x y : Option β} {l m : List β} (h : SameApart x y l m)
    (f : β → Option γ) : SameApart (x.bind f) (y.bind f) (l.filterMap f) (m.filterMap f) := by
  obtain ⟨before, after, rfl, rfl⟩ := h
  exact ⟨_, _, filterMap_middle f before after x, filterMap_middle f before after y⟩

namespace ConvertedDocument

theorem entries_append (cs ds : List ConvertedJob) :
    entries (cs ++ ds) = entries cs ++ entries ds := by
  rw [entries, List.map_append, List.filter_append]
  rfl

theorem lookup_controls_ofJobs (i : String) (cs : List ConvertedJob) :
    (ofJobs cs).controls.lookup i = (entries cs).reverse.lookup i := by
  rw [controls_ofJobs, lookup_insertAll, List.append_nil]

theorem lookup_entries_of_ne {i : String} {x : Option ConvertedJob} (h : ∀ c ∈ x, c.id ≠ i) :
    (entries x.toList).reverse.lookup i = none := by
  cases x with
  | none => rfl
  | some c =>
    have hne : (i == c.id) = false := beq_eq_false_iff_ne.2 (h c rfl).symm
    rw [Option.toList_some, entries, List.map_singleton, List.filter_singleton]
    cases c.controls.isEmpty with
    | true => rfl
    | false =>
      rw [Bool.not_false, cond_true, List.reverse_singleton, List.lookup_cons, hne, List.lookup_nil]

/-- What one job contributes to the controls is found under its id only. -/
theorem lookup_controls_middle {i : String} {x : Option ConvertedJob} (h : ∀ c ∈ x, c.id ≠ i)
    (before after : List ConvertedJob) :
    (ofJobs (before ++ x.toList ++ after)).controls.lookup i =
      (ofJobs (before ++ after)).controls.lookup i := by
  rw [lookup_controls_ofJobs, lookup_controls_ofJobs, entries_append, entries_append,
    entries_append, List.reverse_append, List.reverse_append, List.reverse_append,
    List.lookup_append, List.lookup_append, List.lookup_append, lookup_entries_of_ne h,
    Option.none_or]

end ConvertedDocument

theorem Document.contribution?_middle {p : Policy} {d : Document Float} {before after : List Job}
    {j : Job} (h : d.jobs = before ++ j :: after) :
    d.contribution? p (d.convert p).records before.length =
      (j.outcomeAfter p (before.map Job.id).reverse).converted := by
  have hjob : d.jobs[before.length]? = some j := by
    rw [h, List.getElem?_append_right (Nat.le_refl _), Nat.sub_self, List.getElem?_cons_zero]
  have hrecord : (d.convert p).records[before.length]? =
      some (j.outcomeAfter p (before.map Job.id).reverse).record := by
    change ((Job.outcomes p [] d.jobs).map (·.record))[before.length]? = _
    rw [List.getElem?_map, Job.outcomes_getElem?, hjob, h, List.take_left, List.append_nil]
    rfl
  rw [contribution?, hjob, hrecord, Job.outcomeAfter_converted]
  rfl

theorem Document.convert_isolated {name : String} {k : Nat} {d d' : Document Float}
    (h : DiffersAt name k d d') (p : Policy) :
    Isolated p name k d d' (d.convert p) (d'.convert p) := by
  obtain ⟨before, after, j, j', rfl, hj, hj', hd, hd'⟩ := h.jobs
  set seen := (before.map Job.id).reverse with hseen
  -- both runs meet the other jobs with the same ids before them
  have ha : d.convert p = .ofOutcomes (Job.outcomes p [] before ++
      j.outcomeAfter p seen :: Job.outcomes p (name :: seen) after) := by
    rw [convert, hd, Job.outcomes_middle, hj]
  have hb : d'.convert p = .ofOutcomes (Job.outcomes p [] before ++
      j'.outcomeAfter p seen :: Job.outcomes p (name :: seen) after) := by
    rw [convert, hd', Job.outcomes_middle, hj']
  have hlength : (Job.outcomes p [] before).length = before.length := Job.outcomes_length p [] _
  have hx := contribution?_middle (p := p) hd
  have hy := contribution?_middle (p := p) hd'
  set os := Job.outcomes p [] before
  set os' := Job.outcomes p (name :: seen) after
  have hapart : SameApart (j.outcomeAfter p seen).converted (j'.outcomeAfter p seen).converted
      ((os ++ j.outcomeAfter p seen :: os').filterMap (·.converted))
      ((os ++ j'.outcomeAfter p seen :: os').filterMap (·.converted)) :=
    ⟨_, _, filterMap_converted_middle _ _ _, filterMap_converted_middle _ _ _⟩
  refine ⟨?_, fun i hi => ?_, ?_, ?_, fun id hid => ?_⟩
  · rw [ha, hb]
    simp [BatchSummary.ofOutcomes]
  · rw [ha, hb]
    simp only [BatchSummary.ofOutcomes, List.map_append, List.map_cons]
    exact getElem?_middle_of_ne _ _ _ _ (by rwa [List.length_map, hlength])
  · rw [hx, hy, ha, hb]
    exact hapart.filterMap ConvertedJob.twoWinding?
  · rw [hx, hy, ha, hb]
    exact hapart.filterMap ConvertedJob.threeWinding?
  · have hother {j : Job} (hj : j.id = name) : ∀ c ∈ (j.outcomeAfter p seen).converted, c.id ≠ id :=
      fun c hc he => hid (he ▸ (Job.id_of_outcomeAfter hc).1.trans hj)
    rw [ha, hb]
    simp only [BatchSummary.ofOutcomes, filterMap_converted_middle]
    rw [ConvertedDocument.lookup_controls_middle (hother hj),
      ConvertedDocument.lookup_controls_middle (hother hj')]

/-- Under any settings, a run that returns and one of the document changed in one place that returns
differ in what that place gives; without a manifest both do return, and leave the files alone. -/
theorem Document.run_isolated {name : String} {k : Nat} {d d' : Document Float}
    (h : DiffersAt name k d d') (s : BatchSettings) (now now' : Timestamp) :
    (∀ {σ : Type} [FileSystem σ] (files files' : σ) (a b : BatchSummary),
      ((d.run s now : Attempt (StateM σ) BatchSummary).run.run files).1 = .ok a →
      ((d'.run s now' : Attempt (StateM σ) BatchSummary).run.run files').1 = .ok b →
        Isolated s.policy name k d d' a b) ∧
    (s.manifest = none → ∀ {σ : Type} [FileSystem σ] (files : σ),
      (d.run s now : Attempt (StateM σ) BatchSummary).run.run files =
        (.ok (d.convert s.policy), files) ∧
      (d'.run s now' : Attempt (StateM σ) BatchSummary).run.run files =
        (.ok (d'.convert s.policy), files)) := by
  constructor
  · intro σ _ files files' a b ha hb
    rw [eq_convert_of_run ha, eq_convert_of_run hb]
    exact convert_isolated h s.policy
  · intro hs σ _ files
    exact ⟨run_of_no_manifest hs d now files, run_of_no_manifest hs d' now' files⟩

/-- A transformer with controls that becomes malformed, between others; its id occurs again in the
other list and is not converted there either way. -/
theorem Document.run_isolated_malformed :
    let control : Regulation Float := ⟨.voltage, 110, 1, none, true⟩
    let tap : Option (TapChangerSpec Float) :=
      some ⟨"R", .linearRatio ⟨-1, 1, 0⟩ 1, none, some control⟩
    let good : RawEnd Float := ⟨1, 10, 0, 0, 110, "1", 0, tap, none⟩
    let bad : RawEnd Float := ⟨1, 10, 0, 0, 0, "1", 0, tap, none⟩
    let three : List (RawThreeWinding Float) :=
      [⟨"B", [good, good, good]⟩, ⟨"D", [good, good, good]⟩]
    let d : Document Float := ⟨[⟨"A", good, good⟩, ⟨"B", good, good⟩, ⟨"C", good, good⟩], three⟩
    let d' : Document Float := ⟨[⟨"A", good, good⟩, ⟨"B", good, bad⟩, ⟨"C", good, good⟩], three⟩
    let s : BatchSettings := ⟨{}, none, "grid"⟩
    DiffersAt "B" 1 d d' ∧ ∃ a b,
      (d.run s ⟨0, 0⟩ : Attempt (StateM FileTree) BatchSummary).run.run .empty = (.ok a, .empty) ∧
      (d'.run s ⟨1, 0⟩ : Attempt (StateM FileTree) BatchSummary).run.run .empty = (.ok b, .empty) ∧
      a.converted.controls.map Prod.fst = ["A", "B", "C", "D"] ∧
      b.converted.controls.map Prod.fst = ["A", "C", "D"] ∧
      Isolated s.policy "B" 1 d d' a b := by
  intro control tap good bad three d d' s
  have h : DiffersAt "B" 1 d d' :=
    .two [⟨"A", good, good⟩] [⟨"C", good, good⟩] rfl rfl
  obtain ⟨hisolated, hreturn⟩ := run_isolated h s ⟨0, 0⟩ ⟨1, 0⟩
  obtain ⟨ha, hb⟩ := hreturn rfl FileTree.empty
  exact ⟨h, _, _, ha, hb, by decide +kernel, by decide +kernel,
    hisolated FileTree.empty FileTree.empty _ _ (congrArg Prod.fst ha) (congrArg Prod.fst hb)⟩

end EquivalentCircuit
