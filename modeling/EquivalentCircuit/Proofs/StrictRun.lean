import EquivalentCircuit.Command.Run
import EquivalentCircuit.Proofs.Accounting
import EquivalentCircuit.Proofs.Attempts
import EquivalentCircuit.Proofs.SameFiles

/-! Strict runs. A conversion reads its policy and its document before it writes anything, so one
that cannot be loaded leaves no trace. Whether it is strict is asked when all files are written and
the report is made, so it decides about the verdict only. -/

namespace EquivalentCircuit

open Attempt (ReadOnly Alike)

section Save

variable {m : Type → Type} [Monad m] [FileAccess m]

def Attempt.makeParent (act : String → Activity) (path : String) : Attempt m Unit :=
  match Path.parent? path with
  | none | some "" => pure ()
  | some directory => Attempt.succeed (act directory) (FileAccess.makeDirectories directory)

def Attempt.saveBytes (make : String → Activity) (create : Activity) (path : String)
    (b : ByteArray) : Attempt m Unit := do
  Attempt.makeParent make path
  Attempt.succeed create (FileAccess.write path b)

variable [LawfulMonad m]

theorem Attempt.makeParent_bind {β : Type} (act : String → Activity) (path : String)
    (rest : Attempt m β) :
    (Attempt.makeParent act path >>= fun _ => rest) =
      match Path.parent? path with
      | none => rest
      | some "" => rest
      | some directory =>
        Attempt.succeed (act directory) (FileAccess.makeDirectories directory) >>= fun _ =>
          rest := by
  unfold makeParent
  split
  · exact pure_bind () fun _ => rest
  · exact pure_bind () fun _ => rest
  · rfl

theorem Json.save_eq (j : Json) (path : String) :
    (j.save path : Attempt m Unit) =
      Attempt.saveBytes .makingOutputDirectory (.creating path) path (j.pretty ++ "\n").toUTF8 :=
  (Attempt.makeParent_bind ..).symm

theorem BatchManifest.save_eq (b : BatchManifest) (path : String) :
    (b.save path : Attempt m Unit) =
      Attempt.saveBytes .makingManifestDirectory (.writingManifest path) path b.bytes :=
  (Attempt.makeParent_bind ..).symm

end Save

theorem Policy.readOnly_load {σ : Type} [FileSystem σ] (path : String) :
    ReadOnly (Policy.load path : Attempt (StateM σ) Policy) := by
  refine .bind (.readText _ _) fun text => ?_
  cases PolicyFormat.ofPath? path with
  | none => exact .ofOption _ _
  | some f => exact .during _ (.ofOption _ _)

theorem Document.readOnly_load {σ : Type} [FileSystem σ] (path : String) :
    ReadOnly (Document.load path : Attempt (StateM σ) (Document Float)) :=
  .bind (.readText _ _) fun _ => .ofOption _ _

namespace ConvertArguments

section Monad

variable {m : Type → Type} [Monad m] [FileAccess m]

def loadPolicy (a : ConvertArguments) : Attempt m Policy :=
  match a.policy with
  | some path => Policy.load path
  | none => pure {}

/-- What follows once policy and document are loaded. -/
def finish (a : ConvertArguments) (now : Timestamp) (p : Policy) (d : Document Float) :
    Attempt m BatchSummary := do
  let summary ← d.run ⟨p, a.manifest, a.input⟩ now
  Attempt.during (.writingModels a.output) (summary.converted.toJson.save a.output)
  return summary

theorem perform_eq (a : ConvertArguments) (now : Timestamp) :
    (a.perform now : Attempt m BatchSummary) =
      a.loadPolicy >>= fun p => Document.load a.input >>= fun d => a.finish now p d := by
  unfold perform loadPolicy finish
  cases a.policy <;> rfl

def withStrict (a : ConvertArguments) (strict : Bool) : ConvertArguments :=
  { a with strict := strict }

theorem perform_withStrict (a : ConvertArguments) (strict : Bool) (now : Timestamp) :
    ((a.withStrict strict).perform now : Attempt m BatchSummary) = a.perform now :=
  rfl

def report (a : ConvertArguments) : Except Failure BatchSummary → Report
  | .ok s => ⟨unlines (a.lines s), a.verdict s⟩
  | .error f => ⟨"", some (.interrupted f)⟩

end Monad

variable {σ : Type} [FileSystem σ] {a : ConvertArguments} {now : Timestamp} {files : σ}

theorem run_eq (a : ConvertArguments) (now : Timestamp) (files : σ) :
    (a.run now : StateM σ Report).run files =
      (a.report ((a.perform now : Attempt (StateM σ) BatchSummary).run.run files).1,
        ((a.perform now : Attempt (StateM σ) BatchSummary).run.run files).2) := by
  simp only [run, StateT.run_bind]
  generalize (a.perform now : Attempt (StateM σ) BatchSummary).run.run files = r
  obtain ⟨e, s⟩ := r
  cases e with
  | error f => rfl
  | ok s => rfl

/-- The policy and the document that a run finds in the files. -/
structure Loads (a : ConvertArguments) (files : σ) (p : Policy) (d : Document Float) : Prop where
  policy : ((a.loadPolicy : Attempt (StateM σ) Policy).run.run files).1 = .ok p
  document :
    ((Document.load a.input : Attempt (StateM σ) (Document Float)).run.run files).1 = .ok d

/-- Loading fails, with the given failure first. -/
inductive LoadFails (a : ConvertArguments) (files : σ) : Failure → Prop
  | policy {f : Failure}
    (h : ((a.loadPolicy : Attempt (StateM σ) Policy).run.run files).1 = .error f) :
    LoadFails a files f
  | document {p : Policy} {f : Failure}
    (hp : ((a.loadPolicy : Attempt (StateM σ) Policy).run.run files).1 = .ok p)
    (h : ((Document.load a.input : Attempt (StateM σ) (Document Float)).run.run files).1 =
      .error f) :
    LoadFails a files f

theorem readOnly_loadPolicy (a : ConvertArguments) :
    ReadOnly (a.loadPolicy : Attempt (StateM σ) Policy) := by
  unfold loadPolicy
  cases a.policy with
  | none => exact .pure _
  | some path => exact Policy.readOnly_load path

theorem perform_of_loadFails {f : Failure} (h : a.LoadFails files f) :
    (a.perform now : Attempt (StateM σ) BatchSummary).run.run files = (.error f, files) := by
  rw [perform_eq]
  cases h with
  | policy h => exact a.readOnly_loadPolicy.run_bind_of_error h
  | document hp h =>
    rw [a.readOnly_loadPolicy.run_bind_of_ok hp]
    exact (Document.readOnly_load _).run_bind_of_error h

theorem perform_of_loads {p : Policy} {d : Document Float} (h : a.Loads files p d) :
    (a.perform now : Attempt (StateM σ) BatchSummary).run.run files =
      (a.finish now p d : Attempt (StateM σ) BatchSummary).run.run files := by
  rw [perform_eq, a.readOnly_loadPolicy.run_bind_of_ok h.policy,
    (Document.readOnly_load _).run_bind_of_ok h.document]

theorem loads_or_loadFails (a : ConvertArguments) (files : σ) :
    (∃ p d, a.Loads files p d) ∨ ∃ f, a.LoadFails files f := by
  cases hp : ((a.loadPolicy : Attempt (StateM σ) Policy).run.run files).1 with
  | error f => exact .inr ⟨f, .policy hp⟩
  | ok p =>
    cases hd : ((Document.load a.input : Attempt (StateM σ) (Document Float)).run.run files).1 with
    | error f => exact .inr ⟨f, .document hp hd⟩
    | ok d => exact .inl ⟨p, d, hp, hd⟩

theorem Loads.unique {p p' : Policy} {d d' : Document Float} (h : a.Loads files p d)
    (h' : a.Loads files p' d') : p = p' ∧ d = d' :=
  ⟨Except.ok.inj (h.policy.symm.trans h'.policy), Except.ok.inj (h.document.symm.trans h'.document)⟩

/-- A run that ends well ends with the batch of what it has loaded. -/
theorem eq_convert_of_finish {p : Policy} {d : Document Float} {s : BatchSummary}
    (h : ((a.finish now p d : Attempt (StateM σ) BatchSummary).run.run files).1 = .ok s) :
    s = d.convert p := by
  rw [finish] at h
  obtain ⟨batch, files', hrun, hrest⟩ := Attempt.exists_run_of_bind h
  have hbatch := Document.eq_convert_of_run (congrArg Prod.fst hrun)
  exact (Attempt.eq_of_bind_pure hrest) ▸ hbatch

def Unclean (a : ConvertArguments) (files : σ) : Prop :=
  ∃ p d, a.Loads files p d ∧ (0 < (d.convert p).failure ∨ 0 < (d.convert p).conditions)

end ConvertArguments

/-- Two reports of which the first is strict: they show the same, and the strict one is a failure
also if the batch is not clean. -/
structure Report.OnlyJudges (unclean : Prop) (strict loose : Report) : Prop where
  printed : strict.printed = loose.printed
  failed_iff : strict.failure.isSome ↔ loose.failure.isSome ∨ unclean
  kept : ∀ f ∈ loose.failure, strict.failure = some f

theorem BatchSummary.isClean_eq_false_iff {s : BatchSummary} :
    s.isClean = false ↔ 0 < s.failure ∨ 0 < s.conditions := by
  simp only [isClean, Bool.and_eq_false_iff, beq_eq_false_iff_ne, Nat.pos_iff_ne_zero]

namespace ConvertArguments

variable {a : ConvertArguments}

theorem onlyJudges_report (a : ConvertArguments) (r : Except Failure BatchSummary) :
    Report.OnlyJudges (∃ s, r = .ok s ∧ (0 < s.failure ∨ 0 < s.conditions))
      ((a.withStrict true).report r) ((a.withStrict false).report r) := by
  cases r with
  | error f => exact ⟨rfl, by simp [report], fun _ => id⟩
  | ok s =>
    refine ⟨rfl, ?_, nofun⟩
    simp only [report, verdict, withStrict, Bool.true_and, Bool.false_and, Bool.false_eq_true,
      if_false, Option.isSome_none, false_or, Except.ok.injEq, exists_eq_left',
      ← BatchSummary.isClean_eq_false_iff]
    cases s.isClean <;> simp

section FileSystem

variable {σ : Type} [FileSystem σ] {now : Timestamp} {files : σ}

/-- Where the result is known, so is whether its batch is clean. -/
theorem onlyJudges_of_result {r : Except Failure BatchSummary}
    (h : ((a.perform now : Attempt (StateM σ) BatchSummary).run.run files).1 = r) :
    Report.OnlyJudges (a.Unclean files) ((a.withStrict true).report r)
      ((a.withStrict false).report r) := by
  obtain ⟨hprinted, hfailed, hkept⟩ := a.onlyJudges_report r
  refine ⟨hprinted, ?_, hkept⟩
  cases r with
  | error f => simp [report]
  | ok s =>
    rw [hfailed]
    refine or_congr_right ?_
    rcases a.loads_or_loadFails files with ⟨p, d, hloads⟩ | ⟨f, hfails⟩
    · rw [perform_of_loads hloads] at h
      obtain rfl := eq_convert_of_finish h
      simp only [Except.ok.injEq, exists_eq_left']
      constructor
      · exact fun hs => ⟨p, d, hloads, hs⟩
      · rintro ⟨p', d', hloads', hs⟩
        obtain ⟨rfl, rfl⟩ := hloads.unique hloads'
        exact hs
    · rw [perform_of_loadFails hfails] at h
      cases h

end FileSystem

/-! Two runs at different times. -/

section FileTree

open FileTree (SameBut)

variable {now now' : Timestamp} {manifest : Option String}

theorem alike_saveBytes {P : Location → ByteArray → ByteArray → Prop}
    (make : String → Activity) (create : Activity) {path : String} {b c : ByteArray}
    (h : b = c ∨ P (FileTree.target path) b c) :
    Alike (SameBut P) (Attempt.saveBytes make create path b)
      (Attempt.saveBytes make create path c : Attempt (StateM FileTree) Unit) := by
  refine .bind ?_ fun _ => .succeed _ fun _ _ hs => hs.write h
  unfold Attempt.makeParent
  split
  · exact .pure _
  · exact .pure _
  · exact .succeed _ fun _ _ hs => hs.makeDirectories _

theorem alike_saveManifest {path : String} (hpath : path ∈ manifest) (m : BatchManifest) :
    Alike (SameBut (StampedAt manifest now now'))
      (BatchManifest.save { m with createdAt := now } path)
      (BatchManifest.save { m with createdAt := now' } path :
        Attempt (StateM FileTree) Unit) := by
  rw [BatchManifest.save_eq, BatchManifest.save_eq]
  have hstamped : StampedAt manifest now now' (FileTree.target path)
      (BatchManifest.bytes { m with createdAt := now })
      (BatchManifest.bytes { m with createdAt := now' }) := ⟨⟨path, hpath, rfl⟩, m, rfl, rfl⟩
  exact alike_saveBytes _ _ (.inr hstamped)

theorem alike_finish (a : ConvertArguments) (p : Policy) (d : Document Float) :
    Alike (SameBut (StampedAt a.manifest now now')) (a.finish now p d)
      (a.finish now' p d : Attempt (StateM FileTree) BatchSummary) := by
  have hrun : Alike (SameBut (StampedAt a.manifest now now'))
      (d.run ⟨p, a.manifest, a.input⟩ now)
      (d.run ⟨p, a.manifest, a.input⟩ now' : Attempt (StateM FileTree) BatchSummary) := by
    unfold Document.run
    cases hm : a.manifest with
    | none => exact .pure _
    | some path =>
      exact .bind (alike_saveManifest rfl (.ofSummary now a.input (d.convert p)))
        fun _ => .pure _
  refine .bind hrun fun s => .bind (.during _ ?_) fun _ => .pure _
  rw [Json.save_eq]
  exact alike_saveBytes _ _ (.inl rfl)

theorem alike_perform (a : ConvertArguments) (now now' : Timestamp) (files : FileTree) :
    ((a.perform now : Attempt (StateM FileTree) BatchSummary).run.run files).1 =
        ((a.perform now' : Attempt (StateM FileTree) BatchSummary).run.run files).1 ∧
      SameBut (StampedAt a.manifest now now')
        ((a.perform now : Attempt (StateM FileTree) BatchSummary).run.run files).2
        ((a.perform now' : Attempt (StateM FileTree) BatchSummary).run.run files).2 := by
  rcases a.loads_or_loadFails files with ⟨p, d, h⟩ | ⟨f, h⟩
  · rw [perform_of_loads h, perform_of_loads h]
    exact a.alike_finish p d files files (.refl files)
  · rw [perform_of_loadFails h, perform_of_loadFails h]
    exact ⟨rfl, .refl files⟩

end FileTree

/-- A run that cannot load its policy or its document fails so and changes no file. Asking for a
strict run changes the verdict only: the files and what is printed are the same, but for the time in
the manifest where the runs are at different times. -/
theorem run_strict_only_judges (a : ConvertArguments) :
    (∀ {σ : Type} [FileSystem σ] (files : σ) (now : Timestamp),
      (∀ f, a.LoadFails files f →
        (a.run now : StateM σ Report).run files = (⟨"", some (.interrupted f)⟩, files)) ∧
      let strict := ((a.withStrict true).run now : StateM σ Report).run files
      let loose := ((a.withStrict false).run now : StateM σ Report).run files
      strict.2 = loose.2 ∧ Report.OnlyJudges (a.Unclean files) strict.1 loose.1) ∧
    ∀ (files : FileTree) (now now' : Timestamp),
      let strict := ((a.withStrict true).run now : StateM FileTree Report).run files
      let loose := ((a.withStrict false).run now' : StateM FileTree Report).run files
      FileTree.SameBut (StampedAt a.manifest now now') strict.2 loose.2 ∧
        Report.OnlyJudges (a.Unclean files) strict.1 loose.1 := by
  refine ⟨fun files now => ⟨fun f hf => ?_, ?_⟩, fun files now now' => ?_⟩
  · rw [run_eq, perform_of_loadFails hf]
    rfl
  · simp only [run_eq, perform_withStrict, true_and]
    exact onlyJudges_of_result rfl
  · simp only [run_eq, perform_withStrict]
    obtain ⟨hresult, hfiles⟩ := a.alike_perform now now' files
    rw [← hresult]
    exact ⟨hfiles, onlyJudges_of_result rfl⟩

/-- A policy that is missing, and a document whose only transformer has no windings. -/
theorem run_strict_only_judges_no_windings :
    let text := "\x7b\"three_winding\":[\x7b\"id\":\"T\",\"windings\":[]\x7d]\x7d"
    let files : FileTree := ⟨[([['i']], .file text.toUTF8)]⟩
    let a : ConvertArguments := ⟨"i", "out/o", none, 0, false, some "m"⟩
    let missing : ConvertArguments := ⟨"i", "out/o", some "p", 0, false, none⟩
    let strict := ((a.withStrict true).run ⟨0, 0⟩ : StateM FileTree Report).run files
    let loose := ((a.withStrict false).run ⟨1, 0⟩ : StateM FileTree Report).run files
    (missing.LoadFails files [.readingPolicy "p"] ∧
        (missing.run ⟨0, 0⟩ : StateM FileTree Report).run files =
          (⟨"", some (.interrupted [.readingPolicy "p"])⟩, files)) ∧
      a.Unclean files ∧ FileTree.SameBut (StampedAt (some "m") ⟨0, 0⟩ ⟨1, 0⟩) strict.2 loose.2 ∧
      strict.1.printed = loose.1.printed ∧ strict.1.failure.isSome := by
  intro text files a missing strict loose
  have hmissing : missing.LoadFails files [.readingPolicy "p"] := .policy (by decide +kernel)
  have hunclean : a.Unclean files := by
    refine ⟨{}, ⟨[], [⟨"T", []⟩]⟩, ⟨rfl, by decide +kernel⟩, by decide +kernel⟩
  obtain ⟨hfiles, hprinted, hfailed, -⟩ := (run_strict_only_judges a).2 files ⟨0, 0⟩ ⟨1, 0⟩
  refine ⟨⟨hmissing, ?_⟩, hunclean, hfiles, hprinted, hfailed.2 (.inr hunclean)⟩
  exact ((run_strict_only_judges missing).1 files ⟨0, 0⟩).1 _ hmissing

end ConvertArguments

end EquivalentCircuit
