import EquivalentCircuit.Proofs.Checked
import EquivalentCircuit.Proofs.MachineSection
import EquivalentCircuit.Proofs.MachineTap

/-! When a converted model is finite. The checks bound what is converted, not what comes of it, so a
model of accepted ends can overflow. It does so exactly if one of the exact results named here is
out of range. -/

namespace EquivalentCircuit

open TapChanger (combine combine_none none_combine relocate_negateAngles)

section Models

variable {α : Type} [Scalar α]

structure TwoWindingModel.IsFinite (m : TwoWindingModel α) : Prop where
  r : Scalar.isFinite m.r = true
  x : Scalar.isFinite m.x = true
  g : Scalar.isFinite m.end1.g = true
  b : Scalar.isFinite m.end1.b = true
  ratio : SoundSlot m.end1.ratioTapChanger
  phase : SoundSlot m.end1.phaseTapChanger

structure LegModel.IsFinite (l : LegModel α) : Prop where
  r : Scalar.isFinite l.r = true
  x : Scalar.isFinite l.x = true
  g1 : Scalar.isFinite l.end1.g = true
  b1 : Scalar.isFinite l.end1.b = true
  g2 : Scalar.isFinite l.end2.g = true
  b2 : Scalar.isFinite l.end2.b = true
  ratio : SoundSlot l.end1.ratioTapChanger
  phase : SoundSlot l.end1.phaseTapChanger

def ThreeWindingModel.IsFinite (m : ThreeWindingModel α) : Prop := ∀ i, (m.legs.get i).IsFinite

end Models

/-- What the tap changers `a` of end1 and `b` of end2 need to end up at end1: gathered there, gathered
at end2 and moved, or moved from end2 and combined. -/
def SlotsFit (a b : Option (TapChanger Float)) : Option Side → Prop
  | some .end1 => CombineFits a b
  | some .end2 => CombineFits b a ∧ RelocateFits (combine b a)
  | none => RelocateFits b ∧ CombineFits a (b.map .relocate)

namespace TapSlots

variable {s : TapSlots Float}

theorem sound_ratio (h1 : ∀ t ∈ s.ratio1, t.Sound) (h2 : ∀ t ∈ s.ratio2, t.Sound)
    (side : Option Side) : SoundSlot (s.place side).ratio ↔ SlotsFit s.ratio1 s.ratio2 side := by
  rcases side with _ | _ | _
  · change SoundSlot (combine s.ratio1 (s.ratio2.map .relocate)) ↔ _
    rw [SoundSlot.combine h1, SoundSlot.relocate, SlotsFit]
    exact ⟨fun h => ⟨h.1.2, h.2⟩, fun h => ⟨⟨.of_sound h2, h.1⟩, h.2⟩⟩
  · change SoundSlot (combine (combine s.ratio1 s.ratio2) none) ↔ _
    rw [combine_none, SoundSlot.combine h1, SlotsFit]
    exact and_iff_right (.of_sound h2)
  · change SoundSlot (combine none ((combine s.ratio2 s.ratio1).map .relocate)) ↔ _
    rw [none_combine, SoundSlot.relocate, SoundSlot.combine h2, SlotsFit]
    exact ⟨fun h => ⟨h.1.2, h.2⟩, fun h => ⟨⟨.of_sound h1, h.1⟩, h.2⟩⟩

def swap (s : TapSlots Float) : TapSlots Float := ⟨s.phase1, s.ratio1, s.phase2, s.ratio2⟩

theorem sound_phase (h1 : ∀ t ∈ s.phase1, t.Sound) (h2 : ∀ t ∈ s.phase2, t.Sound)
    (side : Option Side) : SoundSlot (s.place side).phase ↔ SlotsFit s.phase1 s.phase2 side := by
  have h : (s.place side).phase = (s.swap.place side).ratio := by
    rcases side with _ | _ | _ <;> rfl
  rw [h]
  exact sound_ratio (s := s.swap) h1 h2 side

theorem sound_negatePhase (s : TapSlots Float) :
    SoundSlot s.negatePhase.phase ↔ SoundSlot s.phase := by
  have h : (s.phase2.map TapChanger.negateAngles).map TapChanger.relocate =
      (s.phase2.map TapChanger.relocate).map TapChanger.negateAngles := by
    rw [Option.map_map, Option.map_map]
    congr 1
    exact funext relocate_negateAngles
  change SoundSlot (combine (s.phase1.map .negateAngles)
    ((s.phase2.map .negateAngles).map .relocate)) ↔ _
  rw [h]
  exact SoundSlot.combine_negateAngles

end TapSlots

theorem value_half : value Scalar.half = 1 / 2 := by
  have h : view Scalar.half = .finite .positive (2 ^ 52) (-53) (by decide) := rfl
  rw [value, h]
  norm_num [exactOf, signFactor]

theorem isFinite_mul_half {x : Float} : Scalar.isFinite (x * Scalar.half) ↔ Scalar.isFinite x := by
  rw [isFinite_mul, value_half]
  refine ⟨fun h => h.1, fun h => ⟨h, rfl, ?_⟩⟩
  have hx : |value x| < overflowAt := fits_value h
  rw [Fits, abs_mul]
  refine lt_of_le_of_lt ?_ hx
  norm_num
  linarith [abs_nonneg (value x)]

structure Shunts.IsFinite (s : Shunts Float) : Prop where
  g1 : Scalar.isFinite s.g1
  b1 : Scalar.isFinite s.b1
  g2 : Scalar.isFinite s.g2
  b2 : Scalar.isFinite s.b2

theorem isFinite_ofShunts {r x : Float} {s : Shunts Float} :
    (PiSection.ofShunts r x s).IsFinite ↔ Scalar.isFinite r ∧ Scalar.isFinite x ∧ s.IsFinite :=
  ⟨fun h => ⟨h.series.re, h.series.im, h.shunt1.re, h.shunt1.im, h.shunt2.re, h.shunt2.im⟩,
    fun ⟨hr, hx, h⟩ => ⟨⟨hr, hx⟩, ⟨h.g1, h.b1⟩, ⟨h.g2, h.b2⟩⟩⟩

/-- Only shunts that leave their own ends are summed. -/
theorem isFinite_assign {s : Shunts Float} (h : s.IsFinite) (p : ShuntPlacement) :
    (p.assign s).IsFinite ↔
      (p ≠ .ownEnd → Fits (value s.g1 + value s.g2) ∧ Fits (value s.b1 + value s.b2)) := by
  have h0 : Scalar.isFinite (0 : Float) := rfl
  rw [← isFinite_add_of_isFinite h.g1 h.g2, ← isFinite_add_of_isFinite h.b1 h.b2]
  cases p with
  | end1 => exact ⟨fun h _ => ⟨h.g1, h.b1⟩, fun h => ⟨(h nofun).1, (h nofun).2, h0, h0⟩⟩
  | end2 => exact ⟨fun h _ => ⟨h.g2, h.b2⟩, fun h => ⟨h0, h0, (h nofun).1, (h nofun).2⟩⟩
  | ownEnd => exact ⟨fun _ h => absurd rfl h, fun _ => h⟩
  | split =>
    apply Iff.intro
    · exact fun h _ => ⟨isFinite_mul_half.1 h.g1, isFinite_mul_half.1 h.b1⟩
    · intro h
      have hg := isFinite_mul_half.2 (h nofun).1
      have hb := isFinite_mul_half.2 (h nofun).2
      exact ⟨hg, hb, hg, hb⟩

theorem isFinite_legAssign {g b : Float} (hg : Scalar.isFinite g) (hb : Scalar.isFinite b)
    (p : LegShunt) : (p.assign g b).IsFinite := by
  have h0 : Scalar.isFinite (0 : Float) := rfl
  cases p with
  | networkSide => exact ⟨hg, hb, h0, h0⟩
  | starBusSide => exact ⟨h0, h0, hg, hb⟩
  | split =>
    have hg := isFinite_mul_half.2 hg
    have hb := isFinite_mul_half.2 hb
    exact ⟨hg, hb, hg, hb⟩

section Ratio

variable {α : Type} [Scalar α]

def noAngle : Degrees α := ⟨0⟩

def ratioPhasor (magnitude : α) : Phasor α := .ofPolar magnitude (noAngle (α := α)).toRadians.value

end Ratio

/-- What a section needs to survive the move of a structural ratio; the ratio one is not moved. -/
def RatioFits (magnitude : Float) (s : PiSection Float) : Prop :=
  PiSection.isUnitRatio magnitude noAngle = false → s.MoveFits (ratioPhasor magnitude)

theorem isFinite_relocate_ratio {magnitude : Float} {s q : PiSection Float}
    (h : s.relocate magnitude noAngle = .ok q) : q.IsFinite ↔ s.IsFinite ∧ RatioFits magnitude s :=
  PiSection.isFinite_relocate h

namespace TwoWindingEnds

/-- Exactly what accepted ends need to convert to a finite model. -/
structure InRange (p : Policy) (t : TwoWindingEnds Float) : Prop where
  r : Fits (value t.end1.r + value t.end2.r)
  x : Fits (value t.end1.x + value t.end2.x)
  shunts : p.twoWinding.shunt ≠ .ownEnd →
    Fits (value t.end1.g + value t.end2.g) ∧ Fits (value t.end1.b + value t.end2.b)
  move : t.ratioAtEnd2 p.twoWinding = true →
    RatioFits (t.end2.ratedU.ratio t.end1.ratedU) (t.rawSection p.twoWinding)
  total : ∀ s, t.movedSection p.twoWinding = .ok s →
    Fits (value s.g1 + value s.g2) ∧ Fits (value s.b1 + value s.b2)
  ratio : SlotsFit t.end1.ratioTapChanger t.end2.ratioTapChanger
    (p.twoWinding.taps.target? t.reactanceFree1)
  phase : SlotsFit t.end1.phaseTapChanger t.end2.phaseTapChanger
    (p.twoWinding.taps.target? t.reactanceFree1)

variable {t : TwoWindingEnds Float}

theorem isFinite_rawSection (h1 : t.end1.Sound) (h2 : t.end2.Sound) (p : TwoWindingPolicy) :
    (t.rawSection p).IsFinite ↔
      Fits (value t.end1.r + value t.end2.r) ∧ Fits (value t.end1.x + value t.end2.x) ∧
        (p.shunt ≠ .ownEnd → Fits (value t.end1.g + value t.end2.g) ∧
          Fits (value t.end1.b + value t.end2.b)) := by
  have hs : t.rawShunts.IsFinite := ⟨h1.g, h1.b, h2.g, h2.b⟩
  rw [rawSection, isFinite_ofShunts, isFinite_add_of_isFinite h1.r h2.r,
    isFinite_add_of_isFinite h1.x h2.x, isFinite_assign hs]
  rfl

theorem isFinite_movedSection {p : TwoWindingPolicy} {s : PiSection Float}
    (h : t.movedSection p = .ok s) :
    s.IsFinite ↔ (t.rawSection p).IsFinite ∧
      (t.ratioAtEnd2 p = true →
        RatioFits (t.end2.ratedU.ratio t.end1.ratedU) (t.rawSection p)) := by
  unfold movedSection at h
  split_ifs at h with hr
  · rw [isFinite_relocate_ratio h]
    simp only [hr, forall_const]
  · cases h
    simp [hr]

/-- Negated phase angles change nothing. -/
theorem sound_placedSlots (h1 : t.end1.Sound) (h2 : t.end2.Sound) (p : TwoWindingPolicy) :
    (SoundSlot (t.placedSlots p).ratio ↔ SlotsFit t.end1.ratioTapChanger t.end2.ratioTapChanger
      (p.taps.target? t.reactanceFree1)) ∧
    (SoundSlot (t.placedSlots p).phase ↔ SlotsFit t.end1.phaseTapChanger t.end2.phaseTapChanger
      (p.taps.target? t.reactanceFree1)) := by
  have hratio := TapSlots.sound_ratio (s := t.slots) h1.ratio h2.ratio
    (p.taps.target? t.reactanceFree1)
  have hphase := TapSlots.sound_phase (s := t.slots) h1.phase h2.phase
    (p.taps.target? t.reactanceFree1)
  unfold placedSlots
  cases p.phaseNegate with
  | false => exact ⟨hratio, hphase⟩
  | true => exact ⟨hratio, (TapSlots.sound_negatePhase _).trans hphase⟩

theorem isFinite_convert {p : Policy} {c : Conversion Float (TwoWindingModel Float)}
    (h : t.convert p = .ok c) : c.model.IsFinite ↔ t.InRange p := by
  obtain ⟨ht, s, hs, rfl⟩ := convert_eq_ok.1 h
  obtain ⟨h1, h2⟩ := check_eq_ok.1 ht
  have hmoved := isFinite_movedSection hs
  rw [isFinite_rawSection h1 h2] at hmoved
  obtain ⟨hratio, hphase⟩ := sound_placedSlots h1 h2 p.twoWinding
  apply Iff.intro
  · intro hm
    obtain ⟨hg1, hg2, hg⟩ := isFinite_add.1 hm.g
    obtain ⟨hb1, hb2, hb⟩ := isFinite_add.1 hm.b
    obtain ⟨⟨hr, hx, hshunts⟩, hmove⟩ := hmoved.1 ⟨⟨hm.r, hm.x⟩, ⟨hg1, hb1⟩, ⟨hg2, hb2⟩⟩
    refine ⟨hr, hx, hshunts, hmove, fun s' hs' => ?_, hratio.1 hm.ratio, hphase.1 hm.phase⟩
    obtain rfl : s = s' := Except.ok.inj (hs.symm.trans hs')
    exact ⟨hg, hb⟩
  · intro hin
    have hfin := hmoved.2 ⟨⟨hin.r, hin.x, hin.shunts⟩, hin.move⟩
    obtain ⟨hg, hb⟩ := hin.total s hs
    exact ⟨hfin.series.re, hfin.series.im, isFinite_add.2 ⟨hfin.shunt1.re, hfin.shunt2.re, hg⟩,
      isFinite_add.2 ⟨hfin.shunt1.im, hfin.shunt2.im, hb⟩, hratio.2 hin.ratio, hphase.2 hin.phase⟩

end TwoWindingEnds

namespace ThreeWindingEnds

/-- Exactly what the leg of an accepted winding needs to be finite. -/
structure LegInRange (p : Policy) (t : ThreeWindingEnds Float) (i : WindingIndex) : Prop where
  move : p.threeWinding.starVoltage.refersLegs = true →
    (p.threeWinding.legs.get i).ratioAtStarBus = true →
      RatioFits ((p.threeWinding.starVoltage.select t).ratio (t.windings.get i).ratedU)
        (.ofShunts (t.windings.get i).r (t.windings.get i).x
          ((p.threeWinding.legs.get i).shunt.assign (t.windings.get i).g (t.windings.get i).b))
  taps : (p.threeWinding.legs.get i).tapsAtNetworkSide = false →
    RelocateFits (t.windings.get i).ratioTapChanger ∧
      RelocateFits (t.windings.get i).phaseTapChanger

def InRange (p : Policy) (t : ThreeWindingEnds Float) : Prop := ∀ i, t.LegInRange p i

variable {t : ThreeWindingEnds Float}

/-- What is at the network side stays, what is at the star bus moves. -/
theorem sound_legSlots {w : WindingEnd Float} (h : w.Sound) (p : LegPolicy) :
    (SoundSlot (w.legSlots p).ratio ↔
      (p.tapsAtNetworkSide = false → RelocateFits w.ratioTapChanger)) ∧
    (SoundSlot (w.legSlots p).phase ↔
      (p.tapsAtNetworkSide = false → RelocateFits w.phaseTapChanger)) := by
  unfold WindingEnd.legSlots
  cases p.tapsAtNetworkSide with
  | false =>
    have moved {a : Option (TapChanger Float)} (ha : ∀ t ∈ a, t.Sound) :
        SoundSlot (combine none (a.map .relocate)) ↔ (false = false → RelocateFits a) := by
      rw [none_combine, SoundSlot.relocate, forall_prop_of_true rfl]
      exact and_iff_right (.of_sound ha)
    exact ⟨moved h.ratio, moved h.phase⟩
  | true =>
    have kept {a : Option (TapChanger Float)} (ha : ∀ t ∈ a, t.Sound) :
        SoundSlot (combine a none) ↔ (true = false → RelocateFits a) := by
      rw [combine_none]
      exact iff_of_true (.of_sound ha) nofun
    exact ⟨kept h.ratio, kept h.phase⟩

theorem isFinite_legSection {w : WindingEnd Float} (hw : w.Sound) {v : Kilovolts Float}
    {relocates : Bool} {p : LegPolicy} {s : PiSection Float}
    (h : w.legSection v relocates p = .ok s) :
    s.IsFinite ↔ (relocates = true →
      RatioFits (v.ratio w.ratedU) (.ofShunts w.r w.x (p.shunt.assign w.g w.b))) := by
  have hraw : (PiSection.ofShunts w.r w.x (p.shunt.assign w.g w.b)).IsFinite :=
    isFinite_ofShunts.2 ⟨hw.r, hw.x, isFinite_legAssign hw.g hw.b p.shunt⟩
  unfold WindingEnd.legSection at h
  cases relocates with
  | false =>
    cases h
    simpa using hraw
  | true =>
    have hs := isFinite_relocate_ratio h
    simpa only [hraw, true_and, forall_const] using hs

theorem isFinite_leg {p : Policy} {i : WindingIndex} (h : (t.windings.get i).Sound)
    {l : LegModel Float} (hl : t.leg p i = .ok l) : l.IsFinite ↔ t.LegInRange p i := by
  obtain ⟨s, hs, hl⟩ := Checked.bind_eq_ok.1 hl
  cases hl
  have hsection := isFinite_legSection h hs
  obtain ⟨hratio, hphase⟩ := sound_legSlots h (p.threeWinding.legs.get i)
  rw [Bool.and_eq_true] at hsection
  apply Iff.intro
  · intro hm
    have hmove := hsection.1 ⟨⟨hm.r, hm.x⟩, ⟨hm.g1, hm.b1⟩, ⟨hm.g2, hm.b2⟩⟩
    exact ⟨fun h1 h2 => hmove ⟨h1, h2⟩,
      fun htaps => ⟨hratio.1 hm.ratio htaps, hphase.1 hm.phase htaps⟩⟩
  · intro hin
    have hfin := hsection.2 fun h => hin.move h.1 h.2
    exact ⟨hfin.series.re, hfin.series.im, hfin.shunt1.re, hfin.shunt1.im, hfin.shunt2.re,
      hfin.shunt2.im, hratio.2 fun h => (hin.taps h).1, hphase.2 fun h => (hin.taps h).2⟩

theorem isFinite_convert {p : Policy} {c : Conversion Float (ThreeWindingModel Float)}
    (h : t.convert p = .ok c) : c.model.IsFinite ↔ t.InRange p := by
  obtain ⟨ht, legs, hlegs, rfl⟩ := convert_eq_ok.1 h
  have hw := check_eq_ok.1 ht
  rw [WindingIndex.mapM_each_eq_ok] at hlegs
  exact forall_congr' fun i => isFinite_leg (hw i) (hlegs i)

end ThreeWindingEnds

/-- A converted model is finite exactly if the ends were in range, for both kinds of transformer and
under every policy. -/
theorem convert_isFinite_iff (p : Policy) :
    (∀ (t : TwoWindingEnds Float) (c : Conversion Float (TwoWindingModel Float)),
      t.convert p = .ok c → (c.model.IsFinite ↔ t.InRange p)) ∧
    (∀ (t : ThreeWindingEnds Float) (c : Conversion Float (ThreeWindingModel Float)),
      t.convert p = .ok c → (c.model.IsFinite ↔ t.InRange p)) :=
  ⟨fun _ _ h => TwoWindingEnds.isFinite_convert h, fun _ _ h => ThreeWindingEnds.isFinite_convert h⟩

/-- Ends of one rated voltage, with a shunt and a ratio tap changer at each. -/
theorem convert_isFinite_iff_equal_voltages :
    let a : TapChanger Float := ⟨"a", -1, [.plain 0.9 ⟨0⟩, .plain 1 ⟨0⟩], 1, 0, none⟩
    let b : TapChanger Float :=
      ⟨"b", -1, [.plain 0.8 ⟨0⟩, .plain 1 ⟨0⟩, .plain 1.2 ⟨3⟩], 1, 2, none⟩
    let t : TwoWindingEnds Float :=
      ⟨"T", ⟨1, 10, 0.5, -2, ⟨110⟩, "1", 0, some a, none⟩,
        ⟨1, 5, 0.25, 1, ⟨110⟩, "2", 0, some b, none⟩⟩
    ∃ c, t.convert {} = .ok c ∧ c.model.IsFinite ∧ t.InRange {} := by
  intro a b t
  have ht : t.check = .ok () := Checked.eq_ok_of_isOk (by decide +kernel)
  have hs : t.movedSection {} = .ok (t.rawSection {}) := if_neg (by decide +kernel)
  have hc := (TwoWindingEnds.convert_eq_ok (p := {})).2 ⟨ht, _, hs, rfl⟩
  have hratio : SoundSlot (t.placedSlots {}).ratio :=
    .of_sound (TapChanger.forM_check_eq_ok.1 (Checked.eq_ok_of_isOk (by decide +kernel)))
  have hfin : (t.conversionOf {} (t.rawSection {})).model.IsFinite :=
    ⟨by decide +kernel, by decide +kernel, by decide +kernel, by decide +kernel, hratio, nofun⟩
  exact ⟨_, hc, hfin, ((convert_isFinite_iff {}).1 t _ hc).1 hfin⟩

/-- A reactance whose square vanishes cannot be inverted on the way to end1, though a quarter of it
would be a number. -/
theorem convert_small_reactance_not_isFinite :
    let t : TwoWindingEnds Float :=
      ⟨"T", ⟨0, 1e-200, 0, 0, ⟨2⟩, "A", 0, none, none⟩, ⟨0, 0, 0, 0, ⟨1⟩, "B", 0, none, none⟩⟩
    t.check = .ok () ∧ ∃ c, t.convert {} = .ok c ∧ ¬ c.model.IsFinite := by
  intro t
  have ht : t.check = .ok () := Checked.eq_ok_of_isOk (by decide +kernel)
  obtain ⟨s, hs⟩ : ∃ s, t.movedSection {} = .ok s := Checked.exists_eq_ok (by decide +kernel)
  have hc := (TwoWindingEnds.convert_eq_ok (p := {})).2 ⟨ht, s, hs, rfl⟩
  refine ⟨ht, _, hc, fun hfin => ?_⟩
  have hin := (TwoWindingEnds.isFinite_convert hc).1 hfin
  have hmove := hin.move (by decide +kernel) (by decide +kernel)
  have hseries : ¬ (t.rawSection {}).series.isZero = true := by decide +kernel
  rw [PiSection.MoveFits, if_neg hseries] at hmove
  have hzero : Scalar.isZero (t.rawSection {}).series.normSq := by decide +kernel
  obtain ⟨hn, h0⟩ := isZero_iff.1 hzero
  exact (Phasor.value_normSq_ne_zero hn).2 hmove.1.impedance h0

end EquivalentCircuit
