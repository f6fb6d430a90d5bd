import EquivalentCircuit.Numeric.Quantity
import EquivalentCircuit.Decimal.Layout

/-! Why a transformer cannot be converted. A `Fault` is a cause with the values that show it, a
`Malformed` names whose fault it is, and their texts are worded here and nowhere else. -/

namespace EquivalentCircuit

/-- Largest number of steps of one tap changer. -/
def maxTapSteps : Nat := 1024

/-- Highest phase-angle clock reading, in steps of thirty degrees. -/
def maxClock : UInt8 := 11

/-- Which tap position a specification states. -/
inductive PositionRole where
  | neutral
  | tap
deriving DecidableEq

def PositionRole.name : PositionRole → String
  | .neutral => "neutral"
  | .tap => "tap"

inductive Fault (α : Type) where
  | noSteps
  | tooManySteps (count : Nat)
  | positionsOverflow (low : Int32)
  | neutralIndex (index count : Nat)
  | tapIndex (index count : Nat)
  | stepRatio (index : Nat) (rho : α)
  | stepNotFinite (index : Nat)
  | ratedVoltage (terminal : String) (voltage : α)
  | endNotFinite (terminal : String)
  | clock (terminal : String) (reading : UInt8)
  | relocation (magnitude : α) (angle : Degrees α)
  | windingCount (count : Nat)
  | stepsReversed (low high : Int32)
  | stepRange (low high : Int32)
  | neutralStep (neutral low high : Int32)
  | position (role : PositionRole) (found low : Int32) (high : Int)
  | stated (reason : String)

structure Malformed (α : Type) where
  entity : String
  fault : Fault α

/-- A result, or the fault that stands in its way. -/
abbrev Checked (α β : Type) := Except (Malformed α) β

/-- A quantity with four digits after the point and its unit. -/
def Quantity.text {u : MeasureUnit} (q : Quantity u Float) : String :=
  fixedText 4 q.value ++ " " ++ u.symbol

/-- A range of positions with both ends. -/
def rangeText (low high : Int) : String := toString low ++ "..=" ++ toString high

def Fault.message : Fault Float → String
  | .noSteps => "tap changer has no steps"
  | .tooManySteps count => s!"{count} steps exceed the limit of {maxTapSteps}"
  | .positionsOverflow low => s!"tap positions from {low.toInt} overflow"
  | .neutralIndex index count => s!"neutral step index {index} outside {count} steps"
  | .tapIndex index count => s!"tap position index {index} outside {count} steps"
  | .stepRatio index rho => s!"step {index} has non-positive ratio {numberText .message rho}"
  | .stepNotFinite index => s!"step {index} has a non-finite angle or deviation"
  | .ratedVoltage terminal voltage =>
    s!"terminal {terminal}: rated voltage must be positive, got {numberText .message voltage}"
  | .endNotFinite terminal => s!"terminal {terminal}: non-finite r/x/g/b"
  | .clock terminal reading =>
    s!"terminal {terminal}: phase angle clock {reading.toNat} outside {rangeText 0 maxClock.toNat}"
  | .relocation magnitude angle =>
    s!"cannot relocate ratio {numberText .message magnitude}∠{angle.text}"
  | .windingCount count => s!"expected 3 windings, found {count}"
  | .stepsReversed low high => s!"high step {high.toInt} below low step {low.toInt}"
  | .stepRange low high =>
    s!"steps {rangeText low.toInt high.toInt} exceed the limit of {maxTapSteps}"
  | .neutralStep neutral low high =>
    s!"neutral step {neutral.toInt} outside {rangeText low.toInt high.toInt}"
  | .position role found low high =>
    s!"{role.name} position {found.toInt} outside {rangeText low.toInt high}"
  | .stated reason => reason

/-- Every error of the library as one type. -/
inductive ConversionError where
  | malformedInput (malformed : Malformed Float)
  | invalidConfiguration (reason : String)
  | inputOutput (reason : String)
  | unparsable (reason : String)
  | other (reason : String)

def Malformed.message (m : Malformed Float) : String :=
  s!"Malformed input for {m.entity}: {m.fault.message}"

namespace ConversionError

def message : ConversionError → String
  | malformedInput m => m.message
  | invalidConfiguration reason => "Invalid configuration: " ++ reason
  | inputOutput reason => "I/O error: " ++ reason
  | unparsable reason => "Parse error: " ++ reason
  | other reason => reason

/-- Does the error concern only the transformer that raised it? -/
def isPerTransformer : ConversionError → Bool
  | malformedInput _ => true
  | _ => false

end ConversionError

end EquivalentCircuit
