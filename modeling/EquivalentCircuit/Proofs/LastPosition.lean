import EquivalentCircuit.Numeric.MachineScalar
import EquivalentCircuit.Proofs.TapSize

/-! The position of the last step. The check of a tap changer asks that it be a position, and
reckons it in integers. Reckoned in positions the end of the table comes first, one past the last
step, so a table that ends at the greatest position passes the check and yet has no last position
to tell. A product is numbered around zero and stays far from both ends. -/

namespace EquivalentCircuit

theorem position?_eq_some {n : Int} {p : Int32} : position? n = some p ↔ p.toInt = n := by
  unfold position?
  split
  · rename_i h
    have hn : (Int32.ofInt n).toInt = n :=
      Int32.toInt_ofInt_of_le h.1 (by rw [Int32.toInt_maxValue] at h; omega)
    rw [Option.some_inj, ← Int32.toInt_inj, hn, eq_comm]
  · rename_i h
    refine ⟨nofun, fun hp => absurd ?_ h⟩
    rw [← hp]
    exact ⟨Int32.minValue_le_toInt p, Int32.toInt_le p⟩

theorem exists_position? {n : Int} (hmin : Int32.minValue.toInt ≤ n)
    (hmax : n ≤ Int32.maxValue.toInt) : ∃ p : Int32, p.toInt = n :=
  ⟨_, position?_eq_some.1 (if_pos ⟨hmin, hmax⟩)⟩

namespace TapChanger

variable {α : Type} {t : TapChanger α}

/-- The position past the last step is reckoned on the way, so it has to be one too. -/
theorem highTapPosition?_eq_some {p : Int32} (h : t.steps.length ≤ maxTapSteps * maxTapSteps) :
    t.highTapPosition? = some p ↔
      p.toInt = t.lastPosition ∧ t.lastPosition < Int32.maxValue.toInt := by
  have hlength : (Int32.ofNat t.steps.length).toInt = t.steps.length :=
    Int32.toInt_ofNat_of_lt (by rw [maxTapSteps] at h; omega)
  have hlow := Int32.minValue_le_toInt t.lowTapPosition
  unfold highTapPosition? lastPosition
  simp only [Option.bind_eq_bind, Option.bind_eq_some_iff, position?_eq_some, hlength]
  constructor
  · rintro ⟨next, hnext, hp⟩
    have hmax := Int32.toInt_le next
    omega
  · rintro ⟨hp, hlast⟩
    obtain ⟨next, hnext⟩ := exists_position?
      (n := t.lowTapPosition.toInt + t.steps.length) (by omega) (by omega)
    exact ⟨next, hnext, by omega⟩

variable [Scalar α]

theorem exists_lastPosition (h : t.Sound) : ∃ p : Int32, p.toInt = t.lastPosition := by
  have hlow := Int32.minValue_le_toInt t.lowTapPosition
  have hpos := List.length_pos_iff.2 h.nonempty
  exact exists_position? (by unfold lastPosition; omega) h.last_le

theorem highTapPosition?_eq_none (h : t.Sound) :
    t.highTapPosition? = none ↔ t.lastPosition = Int32.maxValue.toInt := by
  have hlength : t.steps.length ≤ maxTapSteps * maxTapSteps :=
    Nat.le_trans h.length_le (by decide)
  obtain ⟨p, hp⟩ := exists_lastPosition h
  have hlast := h.last_le
  rw [Option.eq_none_iff_forall_ne_some]
  constructor
  · intro hnone
    have hnot := hnone p
    rw [Ne, highTapPosition?_eq_some hlength] at hnot
    omega
  · intro hmax q hq
    have hlt := ((highTapPosition?_eq_some hlength).1 hq).2
    omega

/-- A product is numbered from as far below zero as its neutral step is from the first one. -/
theorem toInt_lowTapPosition_product {a b : TapChanger α} (ha : a.Sound) (hb : b.Sound) :
    (product a b).lowTapPosition.toInt = -((product a b).neutralStep : Int) := by
  have hwithin := (Within.of_sound ha).product (Within.of_sound hb)
  have hneutral : (product a b).neutralStep < (product a b).steps.length :=
    hwithin.index_lt .neutral
  have hlength := hwithin.length_le
  rw [maxTapSteps] at hlength
  change (-Int32.ofNat (product a b).neutralStep).toInt = _
  rw [Int32.neg_ofNat, Int32.toInt_ofInt_of_le (by omega) (by omega)]

theorem lastPosition_product {a b : TapChanger α} (ha : a.Sound) (hb : b.Sound) :
    0 ≤ (product a b).lastPosition ∧
      (product a b).lastPosition < (maxTapSteps * maxTapSteps : Nat) := by
  have hwithin := (Within.of_sound ha).product (Within.of_sound hb)
  have hneutral : (product a b).neutralStep < (product a b).steps.length :=
    hwithin.index_lt .neutral
  have hlength := hwithin.length_le
  rw [lastPosition, toInt_lowTapPosition_product ha hb]
  omega

theorem highTapPosition?_product {a b : TapChanger α} (ha : a.Sound) (hb : b.Sound) :
    ∃ p, (product a b).highTapPosition? = some p ∧ p.toInt = (product a b).lastPosition := by
  have hlength := ((Within.of_sound ha).product (Within.of_sound hb)).length_le
  obtain ⟨hmin, hmax⟩ := lastPosition_product ha hb
  rw [maxTapSteps] at hmax
  obtain ⟨p, hp⟩ := exists_position? (n := (product a b).lastPosition)
    (by rw [Int32.toInt_minValue]; omega) (by rw [Int32.toInt_maxValue]; omega)
  exact ⟨p, (highTapPosition?_eq_some hlength).2 ⟨hp, by rw [Int32.toInt_maxValue]; omega⟩, hp⟩

/-- What is told of the last position of a checked tap changer is that of its last step, unless this
is the greatest position there is: then nothing is told. A product of two always tells it. -/
theorem highTapPosition_decided :
    (∀ t : TapChanger α, t.check = .ok () →
      (∀ p, t.highTapPosition? = some p ↔
        p.toInt = t.lastPosition ∧ t.lastPosition < Int32.maxValue.toInt) ∧
      (t.highTapPosition? = none ↔ t.lastPosition = Int32.maxValue.toInt)) ∧
    ∀ a b c : TapChanger α, a.check = .ok () → b.check = .ok () →
      combine (some a) (some b) = some c →
        ∃ p, c.highTapPosition? = some p ∧ p.toInt = c.lastPosition := by
  constructor
  · intro t ht
    rw [check_eq_ok] at ht
    exact ⟨fun p => highTapPosition?_eq_some (Nat.le_trans ht.length_le (by decide)),
      highTapPosition?_eq_none ht⟩
  · rintro a b _ ha hb ⟨⟩
    rw [check_eq_ok] at ha hb
    exact highTapPosition?_product ha hb

/-- A table of the two greatest positions, one that ends just below them, and their product. -/
theorem highTapPosition_decided_near_top :
    let top : TapChanger Float := ⟨"top", 2147483646, [.plain 0.9 ⟨0⟩, .plain 1 ⟨0⟩], 1, 0, none⟩
    let below : TapChanger Float :=
      ⟨"below", 2147483644, [.plain 0.9 ⟨0⟩, .plain 1 ⟨0⟩, .plain 1.1 ⟨0⟩], 1, 2, none⟩
    top.highTapPosition? = none ∧ below.highTapPosition? = some 2147483646 ∧
      ∃ p, (product top below).highTapPosition? = some p ∧ p.toInt = 1 := by
  intro top below
  have htop : top.check = .ok () := Checked.eq_ok_of_isOk (by decide +kernel)
  have hbelow : below.check = .ok () := Checked.eq_ok_of_isOk (by decide +kernel)
  obtain ⟨hchecked, hproduct⟩ := highTapPosition_decided (α := Float)
  exact ⟨(hchecked top htop).2.2 rfl, ((hchecked below hbelow).1 _).2 ⟨rfl, by decide⟩,
    hproduct top below _ htop hbelow rfl⟩

/-- A checked tap changer whose last step stands at a position, but at the greatest one: reckoned in
positions, it has no last position. -/
theorem highTapPosition_top_none :
    let t : TapChanger Float := ⟨"M", Int32.maxValue, [.plain 1 ⟨0⟩], 0, 0, none⟩
    t.check = .ok () ∧ t.lastPosition = Int32.maxValue.toInt ∧ t.highTapPosition? = none ∧
      ¬ ∃ p, t.highTapPosition? = some p ∧ p.toInt = t.lastPosition := by
  intro t
  have hcheck : t.check = .ok () := Checked.eq_ok_of_isOk (by decide +kernel)
  have hlast : t.lastPosition = Int32.maxValue.toInt := by decide
  have hnone := (highTapPosition?_eq_none (check_eq_ok.1 hcheck)).2 hlast
  refine ⟨hcheck, hlast, hnone, ?_⟩
  rintro ⟨p, hp, -⟩
  rw [hnone] at hp
  cases hp

end TapChanger

end EquivalentCircuit
