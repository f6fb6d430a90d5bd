import EquivalentCircuit.Numeric.MachineScalar
import EquivalentCircuit.Proofs.BuiltTap

/-! Where the steps of a built tap changer stand. Indices count from the low position, so the
neutral and the current position are found again by adding their indices to it, and the step at an
index is the formula of its table at the distance from the neutral position. No such distance
leaves the range of positions, since a table is refused before it is generated if it is too long or
its neutral position lies outside. -/

namespace EquivalentCircuit

structure StepRange.Valid (r : StepRange) : Prop where
  low_le_high : r.low ≤ r.high
  count_le : r.high.toInt - r.low.toInt + 1 ≤ 1024
  low_le_neutral : r.low ≤ r.neutral
  neutral_le_high : r.neutral ≤ r.high

namespace StepRange

variable {r : StepRange}

theorem fault?_eq_none {α : Type} : (r.fault? : Option (Fault α)) = none ↔ r.Valid := by
  unfold fault?
  simp only [Int32.lt_iff_toInt_lt, count, maxTapSteps]
  constructor
  · intro h
    split_ifs at h with h1 h2 h3
    rw [not_or] at h3
    exact ⟨Int32.le_iff_toInt_le.2 (by omega), by omega, Int32.le_iff_toInt_le.2 (by omega),
      Int32.le_iff_toInt_le.2 (by omega)⟩
  · rintro ⟨h1, h2, h3, h4⟩
    rw [Int32.le_iff_toInt_le] at h1 h3 h4
    rw [if_neg (by omega), if_neg (by omega), if_neg (by omega)]

theorem length_distances (r : StepRange) : r.distances.length = r.count.toNat := by
  rw [distances, List.length_map, List.length_range]

theorem getElem?_distances {i : Nat} (h : i < r.distances.length) :
    r.distances[i]? = some (r.low.toInt + i - r.neutral.toInt) := by
  rw [length_distances] at h
  rw [distances, List.getElem?_map, List.getElem?_range h, Option.map_some]

/-- A distance from the neutral position that the numbers of positions hold: it is small, and
subtracting two positions of the range gives it exactly. -/
structure Holds (r : StepRange) (n : Int) : Prop where
  lower : -1023 ≤ n
  upper : n ≤ 1023
  exact : ∃ p, r.low ≤ p ∧ p ≤ r.high ∧ n = p.toInt - r.neutral.toInt ∧ (p - r.neutral).toInt = n

theorem Valid.holds (h : r.Valid) {n : Int} (hn : n ∈ r.distances) : r.Holds n := by
  obtain ⟨-, hcount, hneutral, hneutral'⟩ := h
  rw [Int32.le_iff_toInt_le] at hneutral hneutral'
  obtain ⟨i, hi, rfl⟩ := List.mem_map.1 hn
  rw [List.mem_range, count] at hi
  have hmin := Int32.minValue_le_toInt r.low
  have hmax := Int32.toInt_le r.high
  rw [Int32.toInt_minValue] at hmin
  -- the index leads to a position between the two ends, so the sum wraps nowhere
  have hp : (Int32.ofInt (r.low.toInt + i)).toInt = r.low.toInt + i :=
    Int32.toInt_ofInt_of_le (by omega) (by rw [Int32.toInt_maxValue] at hmax; omega)
  refine ⟨by omega, by omega, Int32.ofInt (r.low.toInt + i), ?_, ?_, by rw [hp], ?_⟩
  · rw [Int32.le_iff_toInt_le, hp]
    omega
  · rw [Int32.le_iff_toInt_le, hp]
    omega
  · rw [Int32.toInt_sub, hp, Int.bmod_eq_of_le (by omega) (by omega)]

end StepRange

variable {α : Type} [Scalar α]

/-- How a table is generated: its positions, and ratio and angle of the step that stands `n`
positions from the neutral one. -/
structure Formula (α : Type) where
  range : StepRange
  rho : Int → α
  angle : Int → Degrees α

def Formula.step (g : Formula α) (n : Int) : TapStep α := .plain (g.rho n) (g.angle n)

namespace TapTable

omit [Scalar α] in
def low : TapTable α → Int32
  | explicit low _ _ => low
  | linearRatio r _ | linearPhase r _ | symmetricalPhase r _ | asymmetricalPhase r _ _ => r.low

omit [Scalar α] in
def neutral : TapTable α → Int32
  | explicit _ neutral _ => neutral
  | linearRatio r _ | linearPhase r _ | symmetricalPhase r _ | asymmetricalPhase r _ _ => r.neutral

/-- The formula of each kind of generated table; an explicit table has none. -/
def formula? : TapTable α → Option (Formula α)
  | explicit .. => none
  | linearRatio r du => some ⟨r, fun n => 1 + Scalar.ofInt n * du / Scalar.ofInt 100, fun _ => ⟨0⟩⟩
  | linearPhase r increment => some ⟨r, fun _ => 1, fun n => ⟨Scalar.ofInt n * increment⟩⟩
  | symmetricalPhase r du => some ⟨r, fun _ => 1, fun n =>
      Radians.toDegrees ⟨Scalar.ofInt 2 * Scalar.arctan (Scalar.ofInt n * du / Scalar.ofInt 200)⟩⟩
  | asymmetricalPhase r du connection =>
    let theta := (Degrees.toRadians ⟨connection⟩ : Radians α).value
    let dx (n : Int) := 1 + Scalar.ofInt n * du / Scalar.ofInt 100 * Scalar.cos theta
    let dy (n : Int) := Scalar.ofInt n * du / Scalar.ofInt 100 * Scalar.sin theta
    some ⟨r, fun n => 1 / Scalar.hypotenuse (dx n) (dy n), fun n =>
      Radians.toDegrees ⟨Scalar.arctan2 (dy n) (dx n)⟩⟩

def steps (t : TapTable α) : List (TapStep α) :=
  match t, t.formula? with
  | explicit _ _ steps, _ => steps
  | _, some g => g.range.distances.map g.step
  | _, none => []

variable {t : TapTable α} {g : Formula α} {entity : String}

theorem kinds (t : TapTable α) :
    (∃ low neutral steps, t = .explicit low neutral steps) ∨ ∃ g, t.formula? = some g := by
  cases t with
  | explicit => exact .inl ⟨_, _, _, rfl⟩
  | linearRatio => exact .inr ⟨_, rfl⟩
  | linearPhase => exact .inr ⟨_, rfl⟩
  | symmetricalPhase => exact .inr ⟨_, rfl⟩
  | asymmetricalPhase => exact .inr ⟨_, rfl⟩

/-- A table with a formula is that of its range. -/
structure Follows (t : TapTable α) (g : Formula α) : Prop where
  low : t.low = g.range.low
  neutral : t.neutral = g.range.neutral
  steps : t.steps = g.range.distances.map g.step
  resolve : ∀ entity, t.resolve entity = generate entity g.range g.step

theorem follows (h : t.formula? = some g) : t.Follows g := by
  cases t with
  | explicit => cases h
  | linearRatio => cases h; exact ⟨rfl, rfl, rfl, fun _ => rfl⟩
  | linearPhase => cases h; exact ⟨rfl, rfl, rfl, fun _ => rfl⟩
  | symmetricalPhase => cases h; exact ⟨rfl, rfl, rfl, fun _ => rfl⟩
  | asymmetricalPhase => cases h; exact ⟨rfl, rfl, rfl, fun _ => rfl⟩

omit [Scalar α] in
theorem generate_eq_ok {r : StepRange} {step : Int → TapStep α} {table : StepTable α} :
    generate entity r step = .ok table ↔
      r.Valid ∧ table = ⟨r.low, r.neutral, r.distances.map step⟩ := by
  rw [← StepRange.fault?_eq_none (α := α)]
  unfold generate
  cases r.fault? (α := α) with
  | none => simp [eq_comm]
  | some fault => simp

omit [Scalar α] in
theorem entity_of_generate {r : StepRange} {step : Int → TapStep α} {m : Malformed α}
    (h : generate entity r step = .error m) : m.entity = entity := by
  unfold generate at h
  split at h
  · cases h
    rfl
  · cases h

/-- Only a formula can be refused, and it is for its positions. -/
theorem resolve_eq_ok {table : StepTable α} :
    t.resolve entity = .ok table ↔
      (∀ g, t.formula? = some g → g.range.Valid) ∧ table = ⟨t.low, t.neutral, t.steps⟩ := by
  rcases t.kinds with ⟨low, neutral, steps, rfl⟩ | ⟨g, hg⟩
  · rw [resolve, Except.ok.injEq, eq_comm]
    exact (and_iff_right nofun).symm
  · have hf := follows hg
    rw [hf.resolve, generate_eq_ok, hf.low, hf.neutral, hf.steps, hg]
    exact and_congr_left fun _ => ⟨fun h _ hg => Option.some.inj hg ▸ h, fun h => h g rfl⟩

theorem entity_of_resolve {m : Malformed α} (h : t.resolve entity = .error m) :
    m.entity = entity := by
  rcases t.kinds with ⟨low, neutral, steps, rfl⟩ | ⟨g, hg⟩
  · cases h
  · rw [(follows hg).resolve] at h
    exact entity_of_generate h

end TapTable

structure Formula.Lists (g : Formula α) (steps : List (TapStep α)) : Prop where
  length_eq : (steps.length : Int) = g.range.high.toInt - g.range.low.toInt + 1
  length_pos : 1 ≤ steps.length
  length_le : steps.length ≤ 1024
  step : ∀ i < steps.length, ∀ n : Int, n = g.range.low.toInt + i - g.range.neutral.toInt →
    steps[i]? = some ⟨g.rho n, g.angle n, 0, 0, 0, 0⟩

theorem Formula.lists {g : Formula α} (h : g.range.Valid) :
    g.Lists (g.range.distances.map g.step) := by
  obtain ⟨hle, hcount, -, -⟩ := h
  rw [Int32.le_iff_toInt_le] at hle
  have hlength : ((g.range.distances.map g.step).length : Int) =
      g.range.high.toInt - g.range.low.toInt + 1 := by
    rw [List.length_map, StepRange.length_distances, StepRange.count]
    omega
  refine ⟨hlength, by omega, by omega, ?_⟩
  rintro i hi n rfl
  rw [List.length_map] at hi
  rw [List.getElem?_map, StepRange.getElem?_distances hi]
  rfl

namespace TapChangerSpec

/-- A tap changer stands as specified, and so does each of its steps. -/
structure Places (s : TapChangerSpec α) (t : TapChanger α) : Prop where
  low : t.lowTapPosition = s.table.low
  neutral : t.lowTapPosition.toInt + t.neutralStep = s.table.neutral.toInt
  tap : t.lowTapPosition.toInt + t.tapPosition = (s.tapPosition.getD s.table.neutral).toInt
  explicit : ∀ low neutral steps, s.table = .explicit low neutral steps → t.steps = steps
  generated : ∀ g, s.table.formula? = some g → g.Lists t.steps
  regulation : t.regulation = s.regulation

variable {s : TapChangerSpec α} {t : TapChanger α}

theorem built_iff :
    s.build = .ok t ↔
      t.Sound ∧ (∀ g, s.table.formula? = some g → g.range.Valid) ∧
        s.Describes ⟨s.table.low, s.table.neutral, s.table.steps⟩ t := by
  rw [build_eq_ok]
  simp only [TapTable.resolve_eq_ok]
  refine and_congr_right fun _ => ⟨?_, fun ⟨hg, h⟩ => ⟨_, ⟨hg, rfl⟩, h⟩⟩
  rintro ⟨_, ⟨hg, rfl⟩, h⟩
  exact ⟨hg, h⟩

theorem places_of_build (h : s.build = .ok t) : s.Places t := by
  obtain ⟨-, hvalid, hd⟩ := built_iff.1 h
  have hlow : t.lowTapPosition = s.table.low := hd.low
  have hneutral : (t.neutralStep : Int) = s.table.neutral.toInt - s.table.low.toInt := hd.neutral
  have htap : (t.tapPosition : Int) =
    (s.tapPosition.getD s.table.neutral).toInt - s.table.low.toInt := hd.tap
  refine ⟨hlow, by rw [hlow]; omega, by rw [hlow]; omega, ?_, ?_, hd.regulation⟩
  · intro low neutral steps ht
    rw [hd.steps, ht]
    rfl
  · intro g hg
    rw [hd.steps, (TapTable.follows hg).steps]
    exact Formula.lists (hvalid g hg)

/-- A tap changer that is built has its steps where the specification says, and none of the
distances a table is generated with leaves the positions: where one would, it is refused first. -/
theorem build_places_steps (s : TapChangerSpec α) :
    (∀ t, s.build = .ok t → s.Places t) ∧
      ∀ g, s.table.formula? = some g →
        (∃ m, s.table.resolve s.id = .error m ∧ s.build = .error m) ∨
          ∀ n ∈ g.range.distances, g.range.Holds n := by
  refine ⟨fun t => places_of_build, fun g hg => ?_⟩
  cases hr : s.table.resolve s.id with
  | error m => exact .inl ⟨m, rfl, build_of_resolve_error hr⟩
  | ok table => exact .inr fun n => ((TapTable.resolve_eq_ok.1 hr).1 g hg).holds

/-- A table that ends at the greatest position, and one whose neutral position is too far away. -/
theorem build_places_steps_at_top :
    let range : StepRange := ⟨2147483645, 2147483647, 2147483646⟩
    let top : TapChangerSpec Float := ⟨"R", .linearRatio range 1.25, some 2147483647,
      some ⟨.voltage, 1.02, 0.01, none, true⟩⟩
    let far : TapChangerSpec Float := ⟨"F", .linearPhase ⟨1, 3, -2147483648⟩ 1, none, none⟩
    (∃ t, top.build = .ok t ∧ top.Places t) ∧ (∀ n ∈ range.distances, range.Holds n) ∧
      ∃ m, far.build = .error m := by
  intro range top far
  obtain ⟨t, ht⟩ := Checked.exists_eq_ok (x := top.build) (by decide +kernel)
  obtain ⟨hplaces, hheld⟩ := build_places_steps top
  refine ⟨⟨t, ht, hplaces t ht⟩, ?_, ?_⟩
  · rcases hheld _ rfl with ⟨m, -, hm⟩ | h
    · cases hm.symm.trans ht
    · exact h
  · rcases (build_places_steps far).2 _ rfl with ⟨m, -, hm⟩ | h
    · exact ⟨m, hm⟩
    · have hlarge := (h 2147483649 (by decide)).upper
      omega

end TapChangerSpec

end EquivalentCircuit
