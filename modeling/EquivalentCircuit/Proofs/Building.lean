import Mathlib.Data.List.Basic
import EquivalentCircuit.Proofs.BuiltTap

/-! What raw transformers are built into. A tap changer that was built is sound, so of the checks
that follow only those of the ends' own values can still fail; and what was built has passed the
check that a conversion begins with. -/

namespace EquivalentCircuit

namespace PerWinding

variable {β : Type} {p : PerWinding β}

theorem ofList?_eq_some {l : List β} : ofList? l = some p ↔ l = p.toList := by
  unfold ofList? toList
  split
  · rw [Option.some_inj]
    apply Iff.intro
    · rintro rfl
      rfl
    · intro h
      cases h
      rfl
  · rename_i h
    exact ⟨nofun, fun hl => absurd hl (h _ _ _)⟩

theorem exists_eq_toList {l : List β} : (∃ p : PerWinding β, l = p.toList) ↔ l.length = 3 := by
  rw [List.length_eq_three]
  exact ⟨fun ⟨p, h⟩ => ⟨p.one, p.two, p.three, h⟩, fun ⟨a, b, c, h⟩ => ⟨⟨a, b, c⟩, h⟩⟩

theorem toList_inj {q : PerWinding β} : p.toList = q.toList ↔ p = q := by
  cases p
  cases q
  simp [toList]

theorem mem_toList {b : β} : b ∈ p.toList ↔ ∃ i, p.get i = b := by
  simp only [toList, List.mem_cons, List.not_mem_nil, or_false]
  apply Iff.intro
  · rintro (rfl | rfl | rfl)
    · exact ⟨.one, rfl⟩
    · exact ⟨.two, rfl⟩
    · exact ⟨.three, rfl⟩
  · rintro ⟨i, rfl⟩
    cases i with
    | one => exact .inl rfl
    | two => exact .inr (.inl rfl)
    | three => exact .inr (.inr rfl)

theorem forall_mem_toList {P : β → Prop} : (∀ b ∈ p.toList, P b) ↔ ∀ i, P (p.get i) := by
  simp only [mem_toList, forall_exists_index, forall_apply_eq_imp_iff]

end PerWinding

namespace Checked

variable {α β γ : Type} {f : β → Checked α γ} {o : Option β}

theorem exists_mapM_eq_ok : (∃ o', o.mapM f = .ok o') ↔ ∀ b ∈ o, ∃ c, f b = .ok c := by
  cases o with
  | none => exact ⟨fun _ _ hb => absurd hb (Option.not_mem_none _), fun _ => ⟨none, rfl⟩⟩
  | some b =>
    have h : (some b).mapM f = f b >>= fun c => .ok (some c) := rfl
    simp only [h, Checked.bind_eq_ok, Option.mem_def, Option.some_inj, forall_eq']
    exact ⟨fun ⟨_, c, hc, _⟩ => ⟨c, hc⟩, fun ⟨c, hc⟩ => ⟨some c, c, hc, rfl⟩⟩

theorem exists_of_mapM_eq_ok {o' : Option γ} (h : o.mapM f = .ok o') :
    ∀ c ∈ o', ∃ b ∈ o, f b = .ok c := by
  cases o with
  | none =>
    cases h
    exact fun _ hc => absurd hc (Option.not_mem_none _)
  | some b =>
    obtain ⟨c, hc, h⟩ := Checked.bind_eq_ok.1 h
    cases h
    rintro _ ⟨⟩
    exact ⟨b, rfl, hc⟩

theorem exists_of_mapM_eq_error {m : Malformed α} (h : o.mapM f = .error m) :
    ∃ b ∈ o, f b = .error m := by
  cases o with
  | none => cases h
  | some b =>
    rcases Checked.bind_eq_error.1 h with h | ⟨c, -, h⟩
    · exact ⟨b, rfl, h⟩
    · cases h

end Checked

variable {α : Type} [Scalar α]

namespace RawEnd

variable {e : RawEnd α}

omit [Scalar α] in
def specs (e : RawEnd α) : List (TapChangerSpec α) :=
  e.ratioTapChanger.toList ++ e.phaseTapChanger.toList

omit [Scalar α] in
def withTaps (e : RawEnd α) (ratio phase : Option (TapChanger α)) : WindingEnd α :=
  ⟨e.r, e.x, e.g, e.b, ⟨e.ratedU⟩, e.terminal, e.clock, ratio, phase⟩

omit [Scalar α] in
theorem forall_mem_specs {P : TapChangerSpec α → Prop} :
    (∀ s ∈ e.specs, P s) ↔ (∀ s ∈ e.ratioTapChanger, P s) ∧ ∀ s ∈ e.phaseTapChanger, P s := by
  simp only [specs, List.mem_append, Option.mem_toList, Option.mem_def, or_imp, forall_and]

/-- What is wrong with the values of an end does not depend on its tap changers. -/
def fault? (e : RawEnd α) : Option (Fault α) := (e.withTaps none none).fault?

theorem build_eq (e : RawEnd α) :
    e.build = e.ratioTapChanger.mapM TapChangerSpec.build >>= fun ratio =>
      e.phaseTapChanger.mapM TapChangerSpec.build >>= fun phase => .ok (e.withTaps ratio phase) :=
  rfl

theorem exists_build_eq_ok : (∃ w, e.build = .ok w) ↔ ∀ s ∈ e.specs, ∃ t, s.build = .ok t := by
  rw [forall_mem_specs, ← Checked.exists_mapM_eq_ok, ← Checked.exists_mapM_eq_ok]
  simp only [build_eq, Checked.bind_eq_ok]
  apply Iff.intro
  · rintro ⟨w, ratio, hr, phase, hp, -⟩
    exact ⟨⟨ratio, hr⟩, ⟨phase, hp⟩⟩
  · rintro ⟨⟨ratio, hr⟩, ⟨phase, hp⟩⟩
    exact ⟨_, ratio, hr, phase, hp, rfl⟩

theorem exists_spec_of_build_eq_error {m : Malformed α} (h : e.build = .error m) :
    ∃ s ∈ e.specs, s.build = .error m := by
  simp only [build_eq, Checked.bind_eq_error] at h
  rcases h with h | ⟨ratio, -, h | ⟨phase, -, h⟩⟩
  · obtain ⟨s, hs, h⟩ := Checked.exists_of_mapM_eq_error h
    exact ⟨s, List.mem_append_left _ (Option.mem_toList.2 hs), h⟩
  · obtain ⟨s, hs, h⟩ := Checked.exists_of_mapM_eq_error h
    exact ⟨s, List.mem_append_right _ (Option.mem_toList.2 hs), h⟩
  · cases h

structure Shown (e : RawEnd α) (w : WindingEnd α) : Prop where
  values : w = e.withTaps w.ratioTapChanger w.phaseTapChanger
  ratio : ∀ t ∈ w.ratioTapChanger, t.Sound
  phase : ∀ t ∈ w.phaseTapChanger, t.Sound

theorem shown_of_build {w : WindingEnd α} (h : e.build = .ok w) : e.Shown w := by
  rw [build_eq, Checked.bind_eq_ok] at h
  obtain ⟨ratio, hr, h⟩ := h
  obtain ⟨phase, hp, h⟩ := Checked.bind_eq_ok.1 h
  cases h
  refine ⟨rfl, fun t ht => ?_, fun t ht => ?_⟩
  · obtain ⟨s, -, hs⟩ := Checked.exists_of_mapM_eq_ok hr t ht
    exact TapChangerSpec.sound_of_build hs
  · obtain ⟨s, -, hs⟩ := Checked.exists_of_mapM_eq_ok hp t ht
    exact TapChangerSpec.sound_of_build hs

namespace Shown

variable {w : WindingEnd α}

theorem fault?_eq (h : e.Shown w) : w.fault? = e.fault? := by
  rw [h.values]
  rfl

theorem ratedU_eq (h : e.Shown w) : w.ratedU = ⟨e.ratedU⟩ := by
  rw [h.values]
  rfl

theorem x_eq (h : e.Shown w) : w.x = e.x := by
  rw [h.values]
  rfl

/-- The tap changers are sound already, so they add no fault. -/
theorem check_eq (h : e.Shown w) (entity : String) :
    w.check entity =
      match e.fault? with
      | some fault => .error ⟨entity, fault⟩
      | none => .ok () := by
  have hr : w.ratioTapChanger.forM TapChanger.check = .ok () :=
    TapChanger.forM_check_eq_ok.2 h.ratio
  have hp : w.phaseTapChanger.forM TapChanger.check = .ok () :=
    TapChanger.forM_check_eq_ok.2 h.phase
  unfold WindingEnd.check
  rw [h.fault?_eq, hr, hp]
  cases e.fault? with
  | none => rfl
  | some fault => rfl

theorem sound_iff (h : e.Shown w) : w.Sound ↔ e.fault? = none := by
  rw [WindingEnd.sound_iff, h.fault?_eq]
  exact ⟨fun hs => hs.1, fun hf => ⟨hf, h.ratio, h.phase⟩⟩

theorem check_eq_error (h : e.Shown w) {entity : String} {m : Malformed α} :
    w.check entity = .error m ↔ ∃ f ∈ e.fault?, m = ⟨entity, f⟩ := by
  rw [h.check_eq]
  cases e.fault? with
  | none => simp
  | some fault => simp [eq_comm]

end Shown

end RawEnd

theorem TwoWindingEnds.check_eq_error {t : TwoWindingEnds α} {m : Malformed α}
    (h : t.check = .error m) : t.end1.check t.id = .error m ∨ t.end2.check t.id = .error m := by
  rcases Checked.bind_eq_error.1 h with h | ⟨-, -, h⟩
  · exact .inl h
  · exact .inr h

theorem ThreeWindingEnds.exists_of_check_eq_error {t : ThreeWindingEnds α} {m : Malformed α}
    (h : t.check = .error m) : ∃ i, (t.windings.get i).check t.id = .error m := by
  rcases Checked.bind_eq_error.1 h with h | ⟨-, -, h⟩
  · exact ⟨.one, h⟩
  · rcases Checked.bind_eq_error.1 h with h | ⟨-, -, h⟩
    · exact ⟨.two, h⟩
    · exact ⟨.three, h⟩

/-- Why no transformer named `owner` can have the end. -/
inductive RawEnd.Refused (e : RawEnd α) (owner : String) : Malformed α → Prop
  | spec {s : TapChangerSpec α} {m : Malformed α} (hs : s ∈ e.specs) (h : s.build = .error m) :
    Refused e owner m
  | values {f : Fault α} (h : e.fault? = some f) : Refused e owner ⟨owner, f⟩

namespace RawTwoWinding

omit [Scalar α] in
def ends (t : RawTwoWinding α) : List (RawEnd α) := [t.end1, t.end2]

omit [Scalar α] in
theorem forall_mem_ends {raw : RawTwoWinding α} {P : RawEnd α → Prop} :
    (∀ e ∈ raw.ends, P e) ↔ P raw.end1 ∧ P raw.end2 := by
  simp [ends]

structure Shown (raw : RawTwoWinding α) (t : TwoWindingEnds α) : Prop where
  end1 : raw.end1.Shown t.end1
  end2 : raw.end2.Shown t.end2

variable {raw : RawTwoWinding α}

theorem build_eq (raw : RawTwoWinding α) :
    raw.build = raw.end1.build >>= fun e1 => raw.end2.build >>= fun e2 =>
      (TwoWindingEnds.mk raw.id e1 e2).check >>= fun _ => .ok ⟨raw.id, e1, e2⟩ :=
  rfl

theorem build_eq_ok {t : TwoWindingEnds α} :
    raw.build = .ok t ↔
      t.id = raw.id ∧ raw.end1.build = .ok t.end1 ∧ raw.end2.build = .ok t.end2 ∧
        t.check = .ok () := by
  simp only [build_eq, Checked.bind_eq_ok]
  apply Iff.intro
  · rintro ⟨e1, h1, e2, h2, ⟨⟩, hc, h⟩
    cases h
    exact ⟨rfl, h1, h2, hc⟩
  · obtain ⟨id, e1, e2⟩ := t
    rintro ⟨rfl, h1, h2, hc⟩
    exact ⟨e1, h1, e2, h2, (), hc, rfl⟩

theorem id_of_build {t : TwoWindingEnds α} (h : raw.build = .ok t) : t.id = raw.id :=
  (build_eq_ok.1 h).1

theorem check_of_build {t : TwoWindingEnds α} (h : raw.build = .ok t) : t.check = .ok () := by
  obtain ⟨-, -, -, hc⟩ := build_eq_ok.1 h
  exact hc

theorem shown_of_build {t : TwoWindingEnds α} (h : raw.build = .ok t) : raw.Shown t := by
  obtain ⟨-, h1, h2, -⟩ := build_eq_ok.1 h
  exact ⟨RawEnd.shown_of_build h1, RawEnd.shown_of_build h2⟩

theorem exists_build_eq_ok :
    (∃ t, raw.build = .ok t) ↔
      ∀ e ∈ raw.ends, (∀ s ∈ e.specs, ∃ t, s.build = .ok t) ∧ e.fault? = none := by
  simp only [forall_mem_ends, ← RawEnd.exists_build_eq_ok]
  apply Iff.intro
  · rintro ⟨t, h⟩
    obtain ⟨-, h1, h2, hc⟩ := build_eq_ok.1 h
    obtain ⟨hc1, hc2⟩ := TwoWindingEnds.check_eq_ok.1 hc
    exact ⟨⟨⟨_, h1⟩, (RawEnd.shown_of_build h1).sound_iff.1 hc1⟩,
      ⟨⟨_, h2⟩, (RawEnd.shown_of_build h2).sound_iff.1 hc2⟩⟩
  · rintro ⟨⟨⟨e1, h1⟩, hf1⟩, ⟨e2, h2⟩, hf2⟩
    refine ⟨⟨raw.id, e1, e2⟩, build_eq_ok.2 ⟨rfl, h1, h2, TwoWindingEnds.check_eq_ok.2 ⟨?_, ?_⟩⟩⟩
    · exact (RawEnd.shown_of_build h1).sound_iff.2 hf1
    · exact (RawEnd.shown_of_build h2).sound_iff.2 hf2

theorem refused_of_build_eq_error {m : Malformed α} (h : raw.build = .error m) :
    ∃ e ∈ raw.ends, e.Refused raw.id m := by
  have hm1 : raw.end1 ∈ raw.ends := List.mem_cons_self
  have hm2 : raw.end2 ∈ raw.ends := List.mem_cons_of_mem _ List.mem_cons_self
  simp only [build_eq, Checked.bind_eq_error] at h
  rcases h with h | ⟨e1, h1, h | ⟨e2, h2, h | ⟨-, -, h⟩⟩⟩
  · obtain ⟨s, hs, h⟩ := RawEnd.exists_spec_of_build_eq_error h
    exact ⟨_, hm1, .spec hs h⟩
  · obtain ⟨s, hs, h⟩ := RawEnd.exists_spec_of_build_eq_error h
    exact ⟨_, hm2, .spec hs h⟩
  · rcases TwoWindingEnds.check_eq_error h with h | h
    · obtain ⟨f, hf, rfl⟩ := (RawEnd.shown_of_build h1).check_eq_error.1 h
      exact ⟨_, hm1, .values hf⟩
    · obtain ⟨f, hf, rfl⟩ := (RawEnd.shown_of_build h2).check_eq_error.1 h
      exact ⟨_, hm2, .values hf⟩
  · cases h

end RawTwoWinding

namespace RawThreeWinding

structure Shown (raw : RawThreeWinding α) (t : ThreeWindingEnds α) (w : PerWinding (RawEnd α)) :
    Prop where
  windings : raw.windings = w.toList
  ends : ∀ i, (w.get i).Shown (t.windings.get i)

variable {raw : RawThreeWinding α} {w : PerWinding (RawEnd α)}

theorem build_of_windings (h : raw.windings = w.toList) :
    raw.build = w.mapM RawEnd.build >>= fun ends =>
      (ThreeWindingEnds.mk raw.id ends).check >>= fun _ => .ok ⟨raw.id, ends⟩ := by
  unfold build
  rw [PerWinding.ofList?_eq_some.2 h]
  rfl

theorem build_of_length (h : raw.windings.length ≠ 3) :
    raw.build = .error ⟨raw.id, .windingCount raw.windings.length⟩ := by
  have hn : PerWinding.ofList? raw.windings = none := by
    refine Option.eq_none_iff_forall_ne_some.2 fun w hw => h ?_
    exact PerWinding.exists_eq_toList.1 ⟨w, PerWinding.ofList?_eq_some.1 hw⟩
  unfold build
  rw [hn]
  rfl

theorem build_eq_ok (hw : raw.windings = w.toList) {t : ThreeWindingEnds α} :
    raw.build = .ok t ↔
      t.id = raw.id ∧ (∀ i, (w.get i).build = .ok (t.windings.get i)) ∧ t.check = .ok () := by
  simp only [build_of_windings hw, Checked.bind_eq_ok, PerWinding.mapM_eq_ok]
  apply Iff.intro
  · rintro ⟨ends, he, ⟨⟩, hc, h⟩
    cases h
    exact ⟨rfl, he, hc⟩
  · obtain ⟨id, ends⟩ := t
    rintro ⟨rfl, he, hc⟩
    exact ⟨ends, he, (), hc, rfl⟩

theorem shown_of_build {t : ThreeWindingEnds α} (h : raw.build = .ok t) :
    ∃ w, raw.Shown t w := by
  by_cases hl : raw.windings.length = 3
  · obtain ⟨w, hw⟩ := PerWinding.exists_eq_toList.2 hl
    obtain ⟨-, he, -⟩ := (build_eq_ok hw).1 h
    exact ⟨w, hw, fun i => RawEnd.shown_of_build (he i)⟩
  · rw [build_of_length hl] at h
    cases h

theorem id_of_build {t : ThreeWindingEnds α} (h : raw.build = .ok t) : t.id = raw.id := by
  obtain ⟨w, hw, -⟩ := shown_of_build h
  exact ((build_eq_ok hw).1 h).1

theorem check_of_build {t : ThreeWindingEnds α} (h : raw.build = .ok t) : t.check = .ok () := by
  obtain ⟨w, hw, -⟩ := shown_of_build h
  exact ((build_eq_ok hw).1 h).2.2

theorem exists_build_eq_ok :
    (∃ t, raw.build = .ok t) ↔
      raw.windings.length = 3 ∧
        ∀ e ∈ raw.windings, (∀ s ∈ e.specs, ∃ t, s.build = .ok t) ∧ e.fault? = none := by
  apply Iff.intro
  · rintro ⟨t, h⟩
    obtain ⟨w, hw, hs⟩ := shown_of_build h
    obtain ⟨-, he, hc⟩ := (build_eq_ok hw).1 h
    refine ⟨PerWinding.exists_eq_toList.1 ⟨w, hw⟩, ?_⟩
    rw [hw, PerWinding.forall_mem_toList]
    intro i
    exact ⟨RawEnd.exists_build_eq_ok.1 ⟨_, he i⟩,
      (hs i).sound_iff.1 (ThreeWindingEnds.check_eq_ok.1 hc i)⟩
  · rintro ⟨hl, h⟩
    obtain ⟨w, hw⟩ := PerWinding.exists_eq_toList.2 hl
    rw [hw, PerWinding.forall_mem_toList] at h
    obtain ⟨ends, he⟩ := PerWinding.exists_mapM_eq_ok.2 fun i =>
      RawEnd.exists_build_eq_ok.2 (h i).1
    have hb := PerWinding.mapM_eq_ok.1 he
    refine ⟨⟨raw.id, ends⟩, (build_eq_ok hw).2 ⟨rfl, hb, ThreeWindingEnds.check_eq_ok.2 fun i => ?_⟩⟩
    exact (RawEnd.shown_of_build (hb i)).sound_iff.2 (h i).2

theorem refused_of_build_eq_error {m : Malformed α} (h : raw.build = .error m) :
    raw.windings.length ≠ 3 ∧ m = ⟨raw.id, .windingCount raw.windings.length⟩ ∨
      ∃ e ∈ raw.windings, e.Refused raw.id m := by
  by_cases hl : raw.windings.length = 3
  · obtain ⟨w, hw⟩ := PerWinding.exists_eq_toList.2 hl
    have hmem : ∀ i, w.get i ∈ raw.windings := fun i => hw ▸ PerWinding.mem_toList.2 ⟨i, rfl⟩
    rw [build_of_windings hw, Checked.bind_eq_error] at h
    refine .inr ?_
    rcases h with h | ⟨ends, he, h⟩
    · obtain ⟨i, h⟩ := PerWinding.exists_of_mapM_eq_error h
      obtain ⟨s, hs, h⟩ := RawEnd.exists_spec_of_build_eq_error h
      exact ⟨_, hmem i, .spec hs h⟩
    · have hb := PerWinding.mapM_eq_ok.1 he
      have hi : ∃ i, (ends.get i).check raw.id = .error m := by
        rcases Checked.bind_eq_error.1 h with h | ⟨-, -, h⟩
        · exact ThreeWindingEnds.exists_of_check_eq_error h
        · cases h
      obtain ⟨i, h⟩ := hi
      obtain ⟨f, hf, rfl⟩ := (RawEnd.shown_of_build (hb i)).check_eq_error.1 h
      exact ⟨_, hmem i, .values hf⟩
  · rw [build_of_length hl] at h
    cases h
    exact .inl ⟨hl, rfl⟩

end RawThreeWinding

end EquivalentCircuit
