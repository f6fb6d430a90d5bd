import EquivalentCircuit.TapChanger.Basic

/-! Tap tables. A tap changer is given step by step or generated from its regulation parameters: a
generated table covers the positions from `low` to `high`, and the step at a position is a formula
of its distance from the neutral position. -/

namespace EquivalentCircuit

/-- The positions of a generated table. -/
structure StepRange where
  low : Int32
  high : Int32
  neutral : Int32
deriving DecidableEq

inductive TapTable (α : Type) where
  | explicit (low neutral : Int32) (steps : List (TapStep α))
  /-- The increment is in percent of the rated voltage. -/
  | linearRatio (range : StepRange) (increment : α)
  /-- The increment is in degrees. -/
  | linearPhase (range : StepRange) (increment : α)
  | symmetricalPhase (range : StepRange) (increment : α)
  /-- The connection angle of the winding is in degrees. -/
  | asymmetricalPhase (range : StepRange) (increment connectionAngle : α)
deriving DecidableEq

/-- The positions and steps of a table. -/
structure StepTable (α : Type) where
  low : Int32
  neutral : Int32
  steps : List (TapStep α)

/-- A tap changer as a document states it. Without a tap position it stands at the neutral one. -/
structure TapChangerSpec (α : Type) where
  id : String
  table : TapTable α
  tapPosition : Option Int32
  regulation : Option (Regulation α)
deriving DecidableEq

namespace StepRange

def count (r : StepRange) : Int := r.high.toInt - r.low.toInt + 1

def fault? {α : Type} (r : StepRange) : Option (Fault α) :=
  if r.high < r.low then some (.stepsReversed r.low r.high)
  else if r.count > maxTapSteps then some (.stepRange r.low r.high)
  else if r.neutral < r.low ∨ r.high < r.neutral then some (.neutralStep r.neutral r.low r.high)
  else none

/-- The distances of the positions from the neutral one. -/
def distances (r : StepRange) : List Int :=
  (List.range r.count.toNat).map fun (i : Nat) => r.low.toInt + i - r.neutral.toInt

end StepRange

variable {α : Type} [Scalar α]

/-! Steps `n` positions away from the neutral one. -/

namespace TapStep

def linearRatio (increment : α) (n : Int) : TapStep α :=
  .plain (1 + Scalar.ofInt n * increment / Scalar.ofInt 100) ⟨0⟩

def linearPhase (increment : α) (n : Int) : TapStep α :=
  .plain 1 ⟨Scalar.ofInt n * increment⟩

def symmetricalPhase (increment : α) (n : Int) : TapStep α :=
  let half := Scalar.arctan (Scalar.ofInt n * increment / Scalar.ofInt 200)
  .plain 1 (Radians.toDegrees ⟨Scalar.ofInt 2 * half⟩)

def asymmetricalPhase (increment : α) (connection : Degrees α) (n : Int) : TapStep α :=
  let theta := connection.toRadians.value
  let du := Scalar.ofInt n * increment / Scalar.ofInt 100
  let dx := 1 + du * Scalar.cos theta
  let dy := du * Scalar.sin theta
  .plain (1 / Scalar.hypotenuse dx dy) (Radians.toDegrees ⟨Scalar.arctan2 dy dx⟩)

end TapStep

namespace TapTable

omit [Scalar α] in
def kind : TapTable α → String
  | explicit .. => "table"
  | linearRatio .. => "linear_ratio"
  | linearPhase .. => "linear_phase"
  | symmetricalPhase .. => "symmetrical_phase"
  | asymmetricalPhase .. => "asymmetrical_phase"

omit [Scalar α] in
/-- The table of a range with the given step at each distance. -/
def generate (entity : String) (r : StepRange) (step : Int → TapStep α) :
    Checked α (StepTable α) :=
  match r.fault? with
  | some fault => .error ⟨entity, fault⟩
  | none => .ok ⟨r.low, r.neutral, r.distances.map step⟩

/-- The steps of a table; `entity` is the tap changer it belongs to. -/
def resolve (entity : String) : TapTable α → Checked α (StepTable α)
  | explicit low neutral steps => .ok ⟨low, neutral, steps⟩
  | linearRatio r increment => generate entity r (.linearRatio increment)
  | linearPhase r increment => generate entity r (.linearPhase increment)
  | symmetricalPhase r increment => generate entity r (.symmetricalPhase increment)
  | asymmetricalPhase r increment angle => generate entity r (.asymmetricalPhase increment ⟨angle⟩)

end TapTable

namespace StepTable

omit [Scalar α]

/-- The index of a position. -/
def indexOf (entity : String) (role : PositionRole) (position : Int32) (t : StepTable α) :
    Checked α Nat :=
  let offset := position.toInt - t.low.toInt
  if offset < 0 ∨ offset ≥ t.steps.length then
    .error ⟨entity, .position role position t.low (t.low.toInt + t.steps.length - 1)⟩
  else .ok offset.toNat

end StepTable

/-- The checked tap changer that a specification describes. -/
def TapChangerSpec.build (s : TapChangerSpec α) : Checked α (TapChanger α) := do
  let table ← s.table.resolve s.id
  let neutral ← table.indexOf s.id .neutral table.neutral
  let tap ← match s.tapPosition with
    | some position => table.indexOf s.id .tap position
    | none => pure neutral
  let t ← TapChanger.ofSteps s.id table.low table.steps neutral tap
  return { t with regulation := s.regulation }

end EquivalentCircuit
