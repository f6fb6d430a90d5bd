import EquivalentCircuit.Batch.Basic
import EquivalentCircuit.Proofs.Building
import EquivalentCircuit.Proofs.MachineRange

/-! Which transformers of a document are converted. Building asks something of every end. The
conversion repeats those checks, which a built transformer passes, and asks one thing more: that
each ratio the policy has it move is a positive number. The quotient of two admitted voltages need
not be one, since it can overflow or vanish. -/

namespace EquivalentCircuit

/-- What a rated voltage and a moved ratio have to be. -/
def IsProper (x : Float) : Prop := x.isFinite = true ∧ 0 < x

theorem isProper_iff {x : Float} :
    IsProper x ↔ Scalar.isFinite x = true ∧ Scalar.isPositive x = true :=
  and_congr_right fun h => (isPositive_iff_lt h).symm

namespace RawEnd

variable {e : RawEnd Float}

structure Admitted (e : RawEnd Float) : Prop where
  specs : ∀ s ∈ e.specs, ∃ t, s.build = .ok t
  ratedU : IsProper e.ratedU
  r : e.r.isFinite = true
  x : e.x.isFinite = true
  g : e.g.isFinite = true
  b : e.b.isFinite = true
  clock : e.clock ≤ 11

/-- A fault of the values of an end, with what it names. -/
inductive HasFault (e : RawEnd Float) : Fault Float → Prop
  | ratedVoltage (h : ¬ IsProper e.ratedU) : HasFault e (.ratedVoltage e.terminal e.ratedU)
  | notFinite (h : ∃ v ∈ [e.r, e.x, e.g, e.b], v.isFinite = false) :
    HasFault e (.endNotFinite e.terminal)
  | clock (h : 11 < e.clock) : HasFault e (.clock e.terminal e.clock)

theorem admitted_iff :
    e.Admitted ↔ (∀ s ∈ e.specs, ∃ t, s.build = .ok t) ∧ e.fault? = none := by
  have hf : e.fault? = none ↔ (Scalar.isFinite e.ratedU = true ∧ Scalar.isPositive e.ratedU = true) ∧
      [e.r, e.x, e.g, e.b].all Scalar.isFinite = true ∧ e.clock ≤ maxClock :=
    WindingEnd.fault?_eq_none
  rw [hf, ← isProper_iff]
  simp only [List.all_cons, List.all_nil, Bool.and_eq_true, and_true]
  apply Iff.intro
  · rintro ⟨hs, hu, hr, hx, hg, hb, hc⟩
    exact ⟨hs, hu, ⟨hr, hx, hg, hb⟩, hc⟩
  · rintro ⟨hs, hu, ⟨hr, hx, hg, hb⟩, hc⟩
    exact ⟨hs, hu, hr, hx, hg, hb, hc⟩

theorem hasFault_of_fault? {f : Fault Float} (h : e.fault? = some f) : e.HasFault f := by
  unfold fault? WindingEnd.fault? at h
  split_ifs at h with hu hf hc
  · cases h
    refine .ratedVoltage fun hp => ?_
    obtain ⟨h1, h2⟩ := isProper_iff.1 hp
    rw [Bool.or_eq_true, Bool.not_eq_true', Bool.not_eq_true'] at hu
    rcases hu with hu | hu
    · exact absurd (hu.symm.trans h1) Bool.false_ne_true
    · exact absurd (hu.symm.trans h2) Bool.false_ne_true
  · cases h
    rw [Bool.not_eq_true', List.all_eq_false] at hf
    obtain ⟨v, hv, hf⟩ := hf
    exact .notFinite ⟨v, hv, Bool.eq_false_iff.2 hf⟩
  · cases h
    exact .clock hc

end RawEnd

/-- The test that a relocation without angle begins with. -/
theorem relocation_test (r : Float) :
    (!Scalar.isFinite r || !Scalar.isPositive r || !(⟨0⟩ : Degrees Float).isFinite) = true ↔
      ¬ IsProper r := by
  have ha : (⟨0⟩ : Degrees Float).isFinite = true := by
    rw [Quantity.isFinite, isFinite_eq, view_zero]
    rfl
  rw [isProper_iff, ha]
  cases Scalar.isFinite r <;> cases Scalar.isPositive r <;> simp

def improperRatio (q : Float) : Malformed Float := ⟨"structural ratio", .relocation q ⟨0⟩⟩

/-- A computation that succeeds exactly if the ratios `M` are proper, and fails with one that is
not. -/
structure Checked.Asks {β : Type} (x : Checked Float β) (M : Float → Prop) : Prop where
  proper : ∀ b, x = .ok b → ∀ q, M q → IsProper q
  improper : ∀ m, x = .error m → ∃ q, M q ∧ ¬ IsProper q ∧ m = improperRatio q

namespace Checked.Asks

variable {β γ : Type} {x : Checked Float β} {M : Float → Prop}

theorem exists_ok_iff (h : x.Asks M) : (∃ b, x = .ok b) ↔ ∀ q, M q → IsProper q := by
  apply Iff.intro
  · rintro ⟨b, hb⟩
    exact h.proper b hb
  · intro hM
    cases x with
    | ok b => exact ⟨b, rfl⟩
    | error m =>
      obtain ⟨q, hq, hn, -⟩ := h.improper m rfl
      exact absurd (hM q hq) hn

theorem congr {N : Float → Prop} (h : x.Asks M) (hMN : ∀ q, M q ↔ N q) : x.Asks N := by
  refine ⟨fun b hb q hq => h.proper b hb q ((hMN q).2 hq), fun m hm => ?_⟩
  obtain ⟨q, hq, hn, he⟩ := h.improper m hm
  exact ⟨q, (hMN q).1 hq, hn, he⟩

theorem map (h : x.Asks M) (f : β → γ) : Checked.Asks (x.map f) M := by
  apply Asks.mk
  · intro c hc
    obtain ⟨b, hb, -⟩ := Checked.map_eq_ok.1 hc
    exact h.proper b hb
  · intro m hm
    exact h.improper m (Checked.map_eq_error.1 hm)

theorem perWinding {f : WindingIndex → Checked Float γ} {M : WindingIndex → Float → Prop}
    (h : ∀ i, (f i).Asks (M i)) : (WindingIndex.each.mapM f).Asks fun q => ∃ i, M i q := by
  apply Asks.mk
  · rintro c hc q ⟨i, hq⟩
    exact (h i).proper _ (WindingIndex.mapM_each_eq_ok.1 hc i) q hq
  · intro m hm
    obtain ⟨i, hi⟩ := PerWinding.exists_of_mapM_eq_error hm
    rw [WindingIndex.get_each] at hi
    obtain ⟨q, hq, hn, he⟩ := (h i).improper m hi
    exact ⟨q, ⟨i, hq⟩, hn, he⟩

/-- Only a ratio that moves is asked about. -/
theorem moved (s : PiSection Float) (moves : Bool) (r : Float) :
    (if moves then s.relocate r ⟨0⟩ else .ok s).Asks fun q => moves = true ∧ q = r := by
  cases moves with
  | false => exact ⟨fun _ _ q hq => absurd hq.1 Bool.false_ne_true, nofun⟩
  | true =>
    rw [if_pos rfl, PiSection.relocate]
    split_ifs with h1 h2
    · exact ⟨nofun, fun m hm =>
        ⟨r, ⟨rfl, rfl⟩, (relocation_test r).1 h1, (Except.error.inj hm).symm⟩⟩
    all_goals
      have hr : IsProper r := not_not.1 ((relocation_test r).not.1 h1)
      exact ⟨fun _ _ q hq => hq.2 ▸ hr, nofun⟩

end Checked.Asks

/-- The winding whose rated voltage is that of the star bus; the network side names none. -/
def StarVoltage.reference? : StarVoltage → Option WindingIndex
  | .starBusSide | .end1 => some .one
  | .end2 => some .two
  | .end3 => some .three
  | .networkSide => none

theorem StarVoltage.select_of_reference? {α : Type} [Scalar α] {v : StarVoltage} {k : WindingIndex}
    (h : v.reference? = some k) (t : ThreeWindingEnds α) :
    v.select t = (t.windings.get k).ratedU := by
  cases v <;> cases h <;> rfl

theorem StarVoltage.refersLegs_iff {v : StarVoltage} :
    v.refersLegs = true ↔ ∃ k, v.reference? = some k := by
  cases v <;> simp [refersLegs, reference?]

namespace Job

def ends : Job → List (RawEnd Float)
  | two raw => raw.ends
  | three raw => raw.windings

def endCount : Job → Nat
  | two _ => 2
  | three _ => 3

/-- The policy has a structural ratio of the job moved, computed as `q`. -/
inductive Moves (p : Policy) : Job → Float → Prop
  | two {raw : RawTwoWinding Float} (voltages : (raw.end1.ratedU != raw.end2.ratedU) = true)
    (placement : p.twoWinding.structuralRatio = .end2 ∨
      p.twoWinding.structuralRatio = .reactanceFree ∧ (raw.end1.x != 0) = true) :
    Moves p (.two raw) (raw.end2.ratedU / raw.end1.ratedU)
  | leg {raw : RawThreeWinding Float} {w : PerWinding (RawEnd Float)} {k : WindingIndex}
    (windings : raw.windings = w.toList) (i : WindingIndex)
    (reference : p.threeWinding.starVoltage.reference? = some k)
    (placement : (p.threeWinding.legs.get i).ratioAtStarBus = true) :
    Moves p (.three raw) ((w.get k).ratedU / (w.get i).ratedU)

structure Admitted (p : Policy) (j : Job) : Prop where
  count : j.ends.length = j.endCount
  ends : ∀ e ∈ j.ends, e.Admitted
  ratios : ∀ q, j.Moves p q → IsProper q

/-- Why a job is refused, with what the failure says. Each failure is malformed input, so it
concerns this one transformer. -/
inductive Refused (p : Policy) (j : Job) : Malformed Float → Prop
  | count (h : j.ends.length ≠ j.endCount) : Refused p j ⟨j.id, .windingCount j.ends.length⟩
  | spec {e : RawEnd Float} {s : TapChangerSpec Float} {m : Malformed Float} (he : e ∈ j.ends)
    (hs : s ∈ e.specs) (h : s.build = .error m) : Refused p j m
  | values {e : RawEnd Float} {f : Fault Float} (he : e ∈ j.ends) (h : e.HasFault f) :
    Refused p j ⟨j.id, f⟩
  | ratio {q : Float} (hq : j.Moves p q) (h : ¬ IsProper q) : Refused p j (improperRatio q)

theorem refused_of_end {p : Policy} {j : Job} {e : RawEnd Float} {m : Malformed Float}
    (he : e ∈ j.ends) (h : e.Refused j.id m) : j.Refused p m := by
  cases h with
  | spec hs h => exact .spec he hs h
  | values h => exact .values he (RawEnd.hasFault_of_fault? h)

end Job

theorem TwoWindingEnds.ratioAtEnd2_iff {raw : RawTwoWinding Float} {t : TwoWindingEnds Float}
    (h : raw.Shown t) (p : TwoWindingPolicy) :
    t.ratioAtEnd2 p = true ↔ (raw.end1.ratedU != raw.end2.ratedU) = true ∧
      (p.structuralRatio = .end2 ∨
        p.structuralRatio = .reactanceFree ∧ (raw.end1.x != 0) = true) := by
  have hx : (!t.reactanceFree1) = (raw.end1.x != 0) := by
    rw [reactanceFree1, h.end1.x_eq]
    rfl
  have hu : (!t.end1.ratedU.equal t.end2.ratedU) = (raw.end1.ratedU != raw.end2.ratedU) := by
    rw [h.end1.ratedU_eq, h.end2.ratedU_eq]
    rfl
  rw [ratioAtEnd2, Bool.and_eq_true, hu, hx]
  cases p.structuralRatio with
  | end1 => simp
  | end2 => simp
  | reactanceFree => simp

theorem TwoWindingEnds.asks_convert {raw : RawTwoWinding Float} {t : TwoWindingEnds Float}
    (h : raw.build = .ok t) (p : Policy) : (t.convert p).Asks ((Job.two raw).Moves p) := by
  have hs := RawTwoWinding.shown_of_build h
  rw [convert_of_check (RawTwoWinding.check_of_build h), movedSection]
  refine ((Checked.Asks.moved _ _ _).map _).congr fun q => ?_
  rw [ratioAtEnd2_iff hs, Quantity.ratio, hs.end1.ratedU_eq, hs.end2.ratedU_eq]
  apply Iff.intro
  · rintro ⟨⟨hv, hp⟩, rfl⟩
    exact .two hv hp
  · rintro (⟨hv, hp⟩ | _)
    exact ⟨⟨hv, hp⟩, rfl⟩

theorem ThreeWindingEnds.asks_convert {raw : RawThreeWinding Float} {t : ThreeWindingEnds Float}
    (h : raw.build = .ok t) (p : Policy) : (t.convert p).Asks ((Job.three raw).Moves p) := by
  obtain ⟨w, hw, hs⟩ := RawThreeWinding.shown_of_build h
  have hleg : ∀ i, (t.leg p i).Asks fun q =>
      (p.threeWinding.starVoltage.refersLegs && (p.threeWinding.legs.get i).ratioAtStarBus) = true ∧
        q = (p.threeWinding.starVoltage.select t).ratio (t.windings.get i).ratedU :=
    fun i => (Checked.Asks.moved _ _ _).map _
  rw [convert_of_check (RawThreeWinding.check_of_build h)]
  refine ((Checked.Asks.perWinding hleg).map _).congr fun q => ?_
  simp only [Bool.and_eq_true, StarVoltage.refersLegs_iff]
  apply Iff.intro
  · rintro ⟨i, ⟨⟨k, hk⟩, hp⟩, rfl⟩
    rw [StarVoltage.select_of_reference? hk, (hs k).ratedU_eq, (hs i).ratedU_eq]
    exact .leg hw i hk hp
  · rintro (_ | ⟨hw', i, hk, hp⟩)
    cases PerWinding.toList_inj.1 (hw.symm.trans hw')
    refine ⟨i, ⟨⟨_, hk⟩, hp⟩, ?_⟩
    rw [StarVoltage.select_of_reference? hk, (hs _).ratedU_eq, (hs i).ratedU_eq]
    rfl

namespace Job

/-- All that is told of a conversion: when it succeeds, what a failure says, and that a transformer
once built passes its check again, so that only a moved ratio is left to fail. -/
structure Decided (p : Policy) (j : Job) : Prop where
  accepted : (∃ c, j.convert p = .ok c) ↔ j.Admitted p
  refused : ∀ m, j.convert p = .error m → j.Refused p m
  two : ∀ raw t, j = .two raw → raw.build = .ok t →
    t.check = .ok () ∧ (t.convert p).Asks (j.Moves p)
  three : ∀ raw t, j = .three raw → raw.build = .ok t →
    t.check = .ok () ∧ (t.convert p).Asks (j.Moves p)

theorem admitted_ends_iff {j : Job} :
    (∀ e ∈ j.ends, e.Admitted) ↔
      ∀ e ∈ j.ends, (∀ s ∈ e.specs, ∃ t, s.build = .ok t) ∧ e.fault? = none :=
  forall₂_congr fun _ _ => RawEnd.admitted_iff

/-- A job is built and then converted; each of the two steps has its own reasons to fail. -/
theorem admitted_or_refused {β γ : Type} {p : Policy} {j : Job} {built : Checked Float β}
    {conversion : β → Checked Float γ} {wrap : γ → ConvertedJob}
    (hj : j.convert p = built >>= fun t => conversion t >>= fun c => .ok (wrap c))
    (hok : (∃ t, built = .ok t) ↔ j.ends.length = j.endCount ∧ ∀ e ∈ j.ends, e.Admitted)
    (herror : ∀ m, built = .error m → j.Refused p m)
    (hasks : ∀ t, built = .ok t → (conversion t).Asks (j.Moves p)) :
    ((∃ c, j.convert p = .ok c) ↔ j.Admitted p) ∧
      ∀ m, j.convert p = .error m → j.Refused p m := by
  rw [hj]
  refine ⟨⟨?_, fun h => ?_⟩, fun m hm => ?_⟩
  · rintro ⟨c, hc⟩
    obtain ⟨t, ht, hc⟩ := Checked.bind_eq_ok.1 hc
    obtain ⟨d, hd, -⟩ := Checked.bind_eq_ok.1 hc
    obtain ⟨hcount, hends⟩ := hok.1 ⟨t, ht⟩
    exact ⟨hcount, hends, (hasks t ht).proper d hd⟩
  · obtain ⟨t, ht⟩ := hok.2 ⟨h.count, h.ends⟩
    obtain ⟨d, hd⟩ := (hasks t ht).exists_ok_iff.2 h.ratios
    exact ⟨wrap d, Checked.bind_eq_ok.2 ⟨t, ht, Checked.bind_eq_ok.2 ⟨d, hd, rfl⟩⟩⟩
  · rcases Checked.bind_eq_error.1 hm with hm | ⟨t, ht, hm⟩
    · exact herror m hm
    · rcases Checked.bind_eq_error.1 hm with hm | ⟨d, -, hm⟩
      · obtain ⟨q, hq, hn, rfl⟩ := (hasks t ht).improper m hm
        exact .ratio hq hn
      · cases hm

theorem convert_decided (p : Policy) (j : Job) : j.Decided p := by
  cases j with
  | two raw =>
    have hasks : ∀ t, raw.build = .ok t → (t.convert p).Asks ((two raw).Moves p) :=
      fun _ ht => TwoWindingEnds.asks_convert ht p
    have hok : (∃ t, raw.build = .ok t) ↔
        (two raw).ends.length = (two raw).endCount ∧ ∀ e ∈ (two raw).ends, e.Admitted := by
      rw [admitted_ends_iff]
      exact RawTwoWinding.exists_build_eq_ok.trans (and_iff_right rfl).symm
    have herror : ∀ m, raw.build = .error m → (two raw).Refused p m := by
      intro m hm
      obtain ⟨e, he, h⟩ := RawTwoWinding.refused_of_build_eq_error hm
      exact refused_of_end he h
    obtain ⟨haccepted, hrefused⟩ := admitted_or_refused rfl hok herror hasks
    refine ⟨haccepted, hrefused, ?_, fun _ _ h => (nomatch h)⟩
    rintro _ t ⟨⟩ ht
    exact ⟨RawTwoWinding.check_of_build ht, hasks t ht⟩
  | three raw =>
    have hasks : ∀ t, raw.build = .ok t → (t.convert p).Asks ((three raw).Moves p) :=
      fun _ ht => ThreeWindingEnds.asks_convert ht p
    have hok : (∃ t, raw.build = .ok t) ↔
        (three raw).ends.length = (three raw).endCount ∧ ∀ e ∈ (three raw).ends, e.Admitted := by
      rw [admitted_ends_iff]
      exact RawThreeWinding.exists_build_eq_ok
    have herror : ∀ m, raw.build = .error m → (three raw).Refused p m := by
      intro m hm
      rcases RawThreeWinding.refused_of_build_eq_error hm with ⟨hl, rfl⟩ | ⟨e, he, h⟩
      · exact .count hl
      · exact refused_of_end he h
    obtain ⟨haccepted, hrefused⟩ := admitted_or_refused rfl hok herror hasks
    refine ⟨haccepted, hrefused, fun _ _ h => (nomatch h), ?_⟩
    rintro _ t ⟨⟩ ht
    exact ⟨RawThreeWinding.check_of_build ht, hasks t ht⟩

/-- Both rated voltages are admitted, but their quotient vanishes: where the ratio moves, the
transformer is refused; where it stays, it is converted. -/
example :
    let wide : Job := .two ⟨"T", ⟨0, 1, 0, 0, 1e200, "A", 0, none, none⟩,
      ⟨0, 0, 0, 0, 1e-200, "B", 0, none, none⟩⟩
    (wide.convert {}).isOk = false ∧
      (wide.convert { twoWinding := { structuralRatio := .end1 } }).isOk = true := by
  decide +kernel

end Job

end EquivalentCircuit
