import EquivalentCircuit.Proofs.Frozen
import EquivalentCircuit.Numeric.MachineScalar

/-! Taking a position commutes with converting. Only the tables of tap changers depend on more than
one position, so a transformer frozen at its current position converts to the model frozen there,
and one frozen at its neutral position to the model frozen at neutral. -/

namespace EquivalentCircuit

variable {α : Type}

structure WindingEnd.Frozen (w : Position) (e f : WindingEnd α) : Prop where
  r : f.r = e.r
  x : f.x = e.x
  g : f.g = e.g
  b : f.b = e.b
  ratedU : f.ratedU = e.ratedU
  terminal : f.terminal = e.terminal
  clock : f.clock = e.clock
  ratio : FrozenSlot w e.ratioTapChanger f.ratioTapChanger
  phase : FrozenSlot w e.phaseTapChanger f.phaseTapChanger

def WindingEnd.freeze (w : Position) (e : WindingEnd α) : WindingEnd α :=
  { e with
    ratioTapChanger := e.ratioTapChanger.map (TapChanger.freeze w)
    phaseTapChanger := e.phaseTapChanger.map (TapChanger.freeze w) }

def TwoWindingEnds.freeze (w : Position) (t : TwoWindingEnds α) : TwoWindingEnds α :=
  ⟨t.id, t.end1.freeze w, t.end2.freeze w⟩

def ThreeWindingEnds.freeze (w : Position) (t : ThreeWindingEnds α) : ThreeWindingEnds α :=
  ⟨t.id, t.windings.one.freeze w, t.windings.two.freeze w, t.windings.three.freeze w⟩

structure TwoWindingEnds.Frozen (w : Position) (t u : TwoWindingEnds α) : Prop where
  id : u.id = t.id
  end1 : t.end1.Frozen w u.end1
  end2 : t.end2.Frozen w u.end2

structure ThreeWindingEnds.Frozen (w : Position) (t u : ThreeWindingEnds α) : Prop where
  id : u.id = t.id
  windings : ∀ i, (t.windings.get i).Frozen w (u.windings.get i)

structure TapSlots.Frozen (w : Position) (s s' : TapSlots α) : Prop where
  ratio1 : FrozenSlot w s.ratio1 s'.ratio1
  phase1 : FrozenSlot w s.phase1 s'.phase1
  ratio2 : FrozenSlot w s.ratio2 s'.ratio2
  phase2 : FrozenSlot w s.phase2 s'.phase2

/-- The two models differ in the tables of their tap changers only. -/
structure TwoWindingModel.Frozen (w : Position) (m n : TwoWindingModel α) : Prop where
  id : n.id = m.id
  r : n.r = m.r
  x : n.x = m.x
  g : n.end1.g = m.end1.g
  b : n.end1.b = m.end1.b
  ratio : FrozenSlot w m.end1.ratioTapChanger n.end1.ratioTapChanger
  phase : FrozenSlot w m.end1.phaseTapChanger n.end1.phaseTapChanger
  ratedU1 : n.end1.ratedU = m.end1.ratedU
  terminal1 : n.end1.terminal = m.end1.terminal
  end2 : n.end2 = m.end2
  clock : n.clock = m.clock

structure LegModel.Frozen (w : Position) (l k : LegModel α) : Prop where
  index : k.index = l.index
  r : k.r = l.r
  x : k.x = l.x
  g : k.end1.g = l.end1.g
  b : k.end1.b = l.end1.b
  ratio : FrozenSlot w l.end1.ratioTapChanger k.end1.ratioTapChanger
  phase : FrozenSlot w l.end1.phaseTapChanger k.end1.phaseTapChanger
  clock : k.end1.clock = l.end1.clock
  ratedU : k.end1.ratedU = l.end1.ratedU
  terminal : k.end1.terminal = l.end1.terminal
  end2 : k.end2 = l.end2

structure ThreeWindingModel.Frozen (w : Position) (m n : ThreeWindingModel α) : Prop where
  id : n.id = m.id
  ratedUf : n.ratedUf = m.ratedUf
  legs : ∀ i, (m.legs.get i).Frozen w (n.legs.get i)

structure Conversion.Alike {β : Type} (R : β → β → Prop) (c d : Conversion α β) : Prop where
  model : R c.model d.model
  controls : d.controls = c.controls
  diagnostics : d.diagnostics = c.diagnostics

/-- Both fail for the same reason, or both succeed with related results. -/
inductive Checked.Alike {β : Type} (R : β → β → Prop) : Checked α β → Checked α β → Prop
  | error (e : Malformed α) : Alike R (.error e) (.error e)
  | ok {b c : β} (h : R b c) : Alike R (.ok b) (.ok c)

namespace Checked.Alike

variable {β γ : Type}

theorem of_map {R : γ → γ → Prop} {f g : β → γ} (h : ∀ b, R (f b) (g b)) (x : Checked α β) :
    Checked.Alike R (x.map f) (x.map g) := by
  cases x with
  | error e => exact .error e
  | ok b => exact .ok (h b)

theorem map {R : β → β → Prop} {S : γ → γ → Prop} {f g : β → γ}
    (h : ∀ b c, R b c → S (f b) (g c)) {x y : Checked α β} (hxy : Checked.Alike R x y) :
    Checked.Alike S (x.map f) (y.map g) := by
  cases hxy with
  | error e => exact .error e
  | ok hbc => exact .ok (h _ _ hbc)

theorem bind {R : β → β → Prop} {S : γ → γ → Prop} {f g : β → Checked α γ}
    {x y : Checked α β} (hxy : Checked.Alike R x y)
    (h : ∀ b c, R b c → Checked.Alike S (f b) (g c)) : Checked.Alike S (x >>= f) (y >>= g) := by
  cases hxy with
  | error e => exact .error e
  | ok hbc => exact h _ _ hbc

/-- Results for each winding, the first failure winning. -/
theorem perWinding {R : β → β → Prop} {f g : WindingIndex → Checked α β}
    (h : ∀ i, Checked.Alike R (f i) (g i)) :
    Checked.Alike (fun p q : PerWinding β => ∀ i, R (p.get i) (q.get i))
      (WindingIndex.each.mapM f) (WindingIndex.each.mapM g) := by
  refine bind (h .one) fun a a' ha => bind (h .two) fun b b' hb => bind (h .three) fun c c' hc => ?_
  refine .ok fun i => ?_
  cases i with
  | one => exact ha
  | two => exact hb
  | three => exact hc

end Checked.Alike

variable [Scalar α] {w : Position}

theorem WindingEnd.Frozen.sound {e f : WindingEnd α} (h : e.Frozen w f) (he : e.Sound) :
    f.Sound :=
  ⟨h.ratedU ▸ he.ratedU_finite, h.ratedU ▸ he.ratedU_positive, h.r ▸ he.r, h.x ▸ he.x,
    h.g ▸ he.g, h.b ▸ he.b, h.clock ▸ he.clock, h.ratio.sound he.ratio, h.phase.sound he.phase⟩

theorem WindingEnd.freeze_frozen (w : Position) {e : WindingEnd α} (he : e.Sound) :
    e.Frozen w (e.freeze w) :=
  ⟨rfl, rfl, rfl, rfl, rfl, rfl, rfl, .freeze w he.ratio, .freeze w he.phase⟩

namespace TapSlots.Frozen

variable {s s' : TapSlots α}

theorem gather (h : s.Frozen w s') (side : Side) : (s.gather side).Frozen w (s'.gather side) := by
  cases side with
  | end1 => exact ⟨h.ratio1.combine h.ratio2, h.phase1.combine h.phase2, .none, .none⟩
  | end2 => exact ⟨.none, .none, h.ratio2.combine h.ratio1, h.phase2.combine h.phase1⟩

theorem place (h : s.Frozen w s') (side : Option Side) :
    (s.place side).Frozen w (s'.place side) := by
  cases side with
  | none => exact h
  | some side => exact h.gather side

theorem negatePhase (h : s.Frozen w s') : s.negatePhase.Frozen w s'.negatePhase :=
  ⟨h.ratio1, h.phase1.negateAngles, h.ratio2, h.phase2.negateAngles⟩

theorem ratio (h : s.Frozen w s') : FrozenSlot w s.ratio s'.ratio :=
  h.ratio1.combine h.ratio2.relocate

theorem phase (h : s.Frozen w s') : FrozenSlot w s.phase s'.phase :=
  h.phase1.combine h.phase2.relocate

omit [Scalar α] in
theorem placeConflicts (h : s.Frozen w s') (side : Option Side) :
    s'.placeConflicts side = s.placeConflicts side := by
  cases side with
  | none => rfl
  | some side =>
    cases side with
    | end1 =>
      simp only [TapSlots.placeConflicts, TapSlots.gatherConflicts, h.ratio1.conflicts h.ratio2,
        h.phase1.conflicts h.phase2]
    | end2 =>
      simp only [TapSlots.placeConflicts, TapSlots.gatherConflicts, h.ratio2.conflicts h.ratio1,
        h.phase2.conflicts h.phase1]

theorem moveConflicts (h : s.Frozen w s') : s'.moveConflicts = s.moveConflicts := by
  simp only [TapSlots.moveConflicts, h.ratio1.conflicts h.ratio2.relocate,
    h.phase1.conflicts h.phase2.relocate]

end TapSlots.Frozen

namespace TwoWindingEnds.Frozen

variable {t u : TwoWindingEnds α}

theorem check (h : t.Frozen w u) (ht : t.check = .ok ()) : u.check = .ok () := by
  rw [check_eq_ok] at ht ⊢
  exact ⟨h.end1.sound ht.1, h.end2.sound ht.2⟩

omit [Scalar α] in
theorem slots (h : t.Frozen w u) : t.slots.Frozen w u.slots :=
  ⟨h.end1.ratio, h.end1.phase, h.end2.ratio, h.end2.phase⟩

theorem reactanceFree1 (h : t.Frozen w u) : u.reactanceFree1 = t.reactanceFree1 := by
  rw [TwoWindingEnds.reactanceFree1, TwoWindingEnds.reactanceFree1, h.end1.x]

theorem placedSlots (h : t.Frozen w u) (p : TwoWindingPolicy) :
    (t.placedSlots p).Frozen w (u.placedSlots p) := by
  have hp := h.slots.place (p.taps.target? t.reactanceFree1)
  unfold TwoWindingEnds.placedSlots
  rw [h.reactanceFree1]
  cases p.phaseNegate with
  | false => exact hp
  | true => exact hp.negatePhase

theorem rawSection (h : t.Frozen w u) (p : TwoWindingPolicy) : u.rawSection p = t.rawSection p := by
  simp only [TwoWindingEnds.rawSection, rawShunts, h.end1.r, h.end1.x, h.end1.g, h.end1.b,
    h.end2.r, h.end2.x, h.end2.g, h.end2.b]

theorem ratioAtEnd2 (h : t.Frozen w u) (p : TwoWindingPolicy) :
    u.ratioAtEnd2 p = t.ratioAtEnd2 p := by
  simp only [TwoWindingEnds.ratioAtEnd2, h.reactanceFree1, h.end1.ratedU, h.end2.ratedU]

/-- The section does not depend on tap changers. -/
theorem movedSection (h : t.Frozen w u) (p : TwoWindingPolicy) :
    u.movedSection p = t.movedSection p := by
  rw [TwoWindingEnds.movedSection, TwoWindingEnds.movedSection, h.ratioAtEnd2, h.rawSection,
    h.end1.ratedU, h.end2.ratedU]

theorem diagnostics (h : t.Frozen w u) (p : Policy) : u.diagnostics p = t.diagnostics p := by
  simp only [TwoWindingEnds.diagnostics, clockIssues, h.id, h.end1.clock, h.reactanceFree1,
    h.slots.placeConflicts, (h.placedSlots p.twoWinding).moveConflicts]

theorem modelOf (h : t.Frozen w u) (p : Policy) (s : PiSection α) :
    (t.modelOf p s).Frozen w (u.modelOf p s) where
  id := h.id
  r := rfl
  x := rfl
  g := rfl
  b := rfl
  ratio := (h.placedSlots p.twoWinding).ratio
  phase := (h.placedSlots p.twoWinding).phase
  ratedU1 := h.end1.ratedU
  terminal1 := h.end1.terminal
  end2 := by simp only [TwoWindingEnds.modelOf, h.end2.ratedU, h.end2.terminal]
  clock := by simp only [TwoWindingEnds.modelOf, carriedClock, h.end2.clock]

omit [Scalar α] in
theorem controls {m n : TwoWindingModel α} (h : m.Frozen w n) :
    ControlRecord.ofTwoWinding n = ControlRecord.ofTwoWinding m := by
  rw [ControlRecord.ofTwoWinding, ControlRecord.ofTwoWinding, h.ratio.controls, h.phase.controls]

theorem convert (h : t.Frozen w u) (ht : t.check = .ok ()) (p : Policy) :
    Checked.Alike (Conversion.Alike (TwoWindingModel.Frozen w)) (t.convert p) (u.convert p) := by
  rw [convert_of_check ht, convert_of_check (h.check ht), h.movedSection]
  exact .of_map (fun s => ⟨h.modelOf p s, controls (h.modelOf p s), h.diagnostics p⟩) _

end TwoWindingEnds.Frozen

namespace ThreeWindingEnds.Frozen

variable {t u : ThreeWindingEnds α}

theorem check (h : t.Frozen w u) (ht : t.check = .ok ()) : u.check = .ok () := by
  rw [check_eq_ok] at ht ⊢
  exact fun i => (h.windings i).sound (ht i)

omit [Scalar α] in
theorem clockIssues (h : t.Frozen w u) (p : Policy) : u.clockIssues p = t.clockIssues p := by
  have hc : u.windings.one.clock = t.windings.one.clock := (h.windings .one).clock
  rw [ThreeWindingEnds.clockIssues, ThreeWindingEnds.clockIssues, hc, h.id]

theorem starVoltage (h : t.Frozen w u) (v : StarVoltage) : v.select u = v.select t := by
  cases v with
  | starBusSide => exact (h.windings .one).ratedU
  | networkSide => rfl
  | end1 => exact (h.windings .one).ratedU
  | end2 => exact (h.windings .two).ratedU
  | end3 => exact (h.windings .three).ratedU

end ThreeWindingEnds.Frozen

namespace WindingEnd.Frozen

variable {e f : WindingEnd α}

theorem legSection (h : e.Frozen w f) (v : Kilovolts α) (relocates : Bool) (p : LegPolicy) :
    f.legSection v relocates p = e.legSection v relocates p := by
  rw [WindingEnd.legSection, WindingEnd.legSection, h.r, h.x, h.g, h.b, h.ratedU]

omit [Scalar α] in
theorem legSlots (h : e.Frozen w f) (p : LegPolicy) : (e.legSlots p).Frozen w (f.legSlots p) := by
  unfold WindingEnd.legSlots
  cases p.tapsAtNetworkSide with
  | false => exact ⟨.none, .none, h.ratio, h.phase⟩
  | true => exact ⟨h.ratio, h.phase, .none, .none⟩

theorem legOf (h : e.Frozen w f) (clocks : Bool) (i : WindingIndex) (p : LegPolicy)
    (s : PiSection α) : (e.legOf clocks i p s).Frozen w (f.legOf clocks i p s) where
  index := rfl
  r := rfl
  x := rfl
  g := rfl
  b := rfl
  ratio := (h.legSlots p).ratio
  phase := (h.legSlots p).phase
  clock := by simp only [WindingEnd.legOf, legClock, h.clock]
  ratedU := h.ratedU
  terminal := h.terminal
  end2 := rfl

end WindingEnd.Frozen

namespace ThreeWindingEnds.Frozen

variable {t u : ThreeWindingEnds α}

theorem leg (h : t.Frozen w u) (p : Policy) (i : WindingIndex) :
    Checked.Alike (LegModel.Frozen w) (t.leg p i) (u.leg p i) := by
  have hleg : ∀ t : ThreeWindingEnds α, t.leg p i =
      ((t.windings.get i).legSection (p.threeWinding.starVoltage.select t)
        (p.threeWinding.starVoltage.refersLegs && (p.threeWinding.legs.get i).ratioAtStarBus)
        (p.threeWinding.legs.get i)).map
          ((t.windings.get i).legOf p.clocks i (p.threeWinding.legs.get i)) := fun _ => rfl
  rw [hleg, hleg, h.starVoltage, (h.windings i).legSection]
  exact .of_map (fun s => (h.windings i).legOf _ _ _ s) _

omit [Scalar α] in
theorem controls {m n : ThreeWindingModel α} (h : m.Frozen w n) :
    ControlRecord.ofThreeWinding n = ControlRecord.ofThreeWinding m := by
  have hleg (i : WindingIndex) :
      ControlRecord.ofLeg (n.legs.get i) = ControlRecord.ofLeg (m.legs.get i) := by
    have hi := h.legs i
    rw [ControlRecord.ofLeg, ControlRecord.ofLeg, hi.index, hi.ratio.controls, hi.phase.controls]
  have h1 := hleg .one
  have h2 := hleg .two
  have h3 := hleg .three
  simp only [PerWinding.get] at h1 h2 h3
  simp only [ControlRecord.ofThreeWinding, PerWinding.toList, List.flatMap_cons, h1, h2, h3]

theorem tapConflicts (h : t.Frozen w u) (p : Policy) : u.tapConflicts p = t.tapConflicts p := by
  have hleg (i : WindingIndex) := ((h.windings i).legSlots (p.threeWinding.legs.get i)).moveConflicts
  simp only [ThreeWindingEnds.tapConflicts, hleg]

theorem convert (h : t.Frozen w u) (ht : t.check = .ok ()) (p : Policy) :
    Checked.Alike (Conversion.Alike (ThreeWindingModel.Frozen w)) (t.convert p) (u.convert p) := by
  rw [convert_of_check ht, convert_of_check (h.check ht)]
  refine .map (fun legs legs' hl => ?_) (.perWinding (h.leg p))
  have hm : (t.conversionOf p legs).model.Frozen w (u.conversionOf p legs').model :=
    ⟨h.id, h.starVoltage _, hl⟩
  have hd : u.clockIssues p ++ u.tapConflicts p = t.clockIssues p ++ t.tapConflicts p := by
    rw [h.clockIssues, h.tapConflicts]
  exact ⟨hm, controls hm, hd⟩

end ThreeWindingEnds.Frozen

theorem TwoWindingEnds.freeze_frozen (w : Position) {t : TwoWindingEnds α}
    (ht : t.check = .ok ()) : t.Frozen w (t.freeze w) := by
  obtain ⟨h1, h2⟩ := check_eq_ok.1 ht
  exact ⟨rfl, WindingEnd.freeze_frozen w h1, WindingEnd.freeze_frozen w h2⟩

theorem ThreeWindingEnds.freeze_frozen (w : Position) {t : ThreeWindingEnds α}
    (ht : t.check = .ok ()) : t.Frozen w (t.freeze w) := by
  have hs := check_eq_ok.1 ht
  refine ⟨rfl, fun i => ?_⟩
  cases i with
  | one => exact WindingEnd.freeze_frozen w (hs .one)
  | two => exact WindingEnd.freeze_frozen w (hs .two)
  | three => exact WindingEnd.freeze_frozen w (hs .three)

/-- A transformer that passes its check can be frozen at either position. However it is frozen, both
conversions fail for the same reason, or both succeed with the same controls and diagnostics, and
the second model is the first one frozen at that position. -/
theorem convert_frozen (p : Policy) (w : Position) :
    (∀ t : TwoWindingEnds α, t.check = .ok () → t.Frozen w (t.freeze w) ∧
      ∀ u, t.Frozen w u →
        Checked.Alike (Conversion.Alike (TwoWindingModel.Frozen w)) (t.convert p) (u.convert p)) ∧
    (∀ t : ThreeWindingEnds α, t.check = .ok () → t.Frozen w (t.freeze w) ∧
      ∀ u, t.Frozen w u →
        Checked.Alike (Conversion.Alike (ThreeWindingModel.Frozen w)) (t.convert p)
          (u.convert p)) :=
  ⟨fun _ ht => ⟨TwoWindingEnds.freeze_frozen w ht, fun _ h => h.convert ht p⟩,
    fun _ ht => ⟨ThreeWindingEnds.freeze_frozen w ht, fun _ h => h.convert ht p⟩⟩

/-- Ratio tap changers of two and three steps at the two ends, not at their neutral positions. -/
theorem convert_frozen_two_tables :
    let a : TapChanger Float := ⟨"a", -1, [.plain 0.9 ⟨0⟩, .plain 1 ⟨0⟩], 1, 0, none⟩
    let b : TapChanger Float :=
      ⟨"b", -1, [.plain 0.8 ⟨0⟩, .plain 1 ⟨0⟩, .plain 1.2 ⟨3⟩], 1, 2, none⟩
    let t : TwoWindingEnds Float :=
      ⟨"T", ⟨1, 10, 0, 0, ⟨110⟩, "1", 0, some a, none⟩, ⟨0, 0, 0, 0, ⟨20⟩, "2", 5, some b, none⟩⟩
    t.check = .ok () ∧ t.Frozen .current (t.freeze .current) ∧
      Checked.Alike (Conversion.Alike (TwoWindingModel.Frozen .current)) (t.convert {})
        ((t.freeze .current).convert {}) := by
  intro a b t
  have ht : t.check = .ok () := Checked.eq_ok_of_isOk (by decide +kernel)
  obtain ⟨hf, h⟩ := (convert_frozen {} .current).1 t ht
  exact ⟨ht, hf, h _ hf⟩

end EquivalentCircuit
