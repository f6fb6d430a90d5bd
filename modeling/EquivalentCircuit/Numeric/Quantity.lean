import EquivalentCircuit.Numeric.Scalar

/-! Numbers with a unit. Rated voltages are kept in kilovolts and phase shifts in degrees; radians
appear only inside the complex arithmetic of a ratio. -/

namespace EquivalentCircuit

inductive MeasureUnit where
  | kilovolt
  | degree
  | radian
deriving DecidableEq

def MeasureUnit.symbol : MeasureUnit → String
  | .kilovolt => "kV"
  | .degree => "deg"
  | .radian => "rad"

structure Quantity (u : MeasureUnit) (α : Type) where
  value : α
deriving DecidableEq

abbrev Kilovolts (α : Type) := Quantity .kilovolt α

abbrev Degrees (α : Type) := Quantity .degree α

abbrev Radians (α : Type) := Quantity .radian α

namespace Quantity

variable {u : MeasureUnit} {α : Type} [Scalar α]

instance : Add (Quantity u α) := ⟨fun a b => ⟨a.value + b.value⟩⟩

instance : Sub (Quantity u α) := ⟨fun a b => ⟨a.value - b.value⟩⟩

instance : Neg (Quantity u α) := ⟨fun a => ⟨-a.value⟩⟩

def scale (a : Quantity u α) (k : α) : Quantity u α := ⟨a.value * k⟩

def scaleDown (a : Quantity u α) (k : α) : Quantity u α := ⟨a.value / k⟩

/-- The quotient of two quantities of one unit is a plain number. -/
def ratio (a b : Quantity u α) : α := a.value / b.value

def equal (a b : Quantity u α) : Bool := Scalar.equal a.value b.value

def isFinite (a : Quantity u α) : Bool := Scalar.isFinite a.value

/-- How two quantities lie to each other; nothing if one of them is no number. -/
def compare? (a b : Quantity u α) : Option Ordering :=
  match Scalar.atMost a.value b.value, Scalar.atMost b.value a.value with
  | true, true => some .eq
  | true, false => some .lt
  | false, true => some .gt
  | false, false => none

end Quantity

variable {α : Type} [Scalar α]

def Degrees.toRadians (a : Degrees α) : Radians α := ⟨a.value * Scalar.radiansPerDegree⟩

def Radians.toDegrees (a : Radians α) : Degrees α := ⟨a.value * Scalar.degreesPerRadian⟩

end EquivalentCircuit
