/-! Numbers a circuit is computed with. Every formula of the library is written once, over a
`Scalar`: read over a field it is exact, read over binary64 it rounds at each operation in the
order written. -/

namespace EquivalentCircuit

/-- Arithmetic, the tests the checks need and the functions of angles. The tests are booleans
because a machine number may compare with nothing, itself included. -/
class Scalar (α : Type) extends Add α, Sub α, Mul α, Div α, Neg α, Zero α, One α where
  ofInt : Int → α
  half : α
  isFinite : α → Bool
  /-- Numeric equality; the two signed zeros are equal. -/
  equal : α → α → Bool
  atMost : α → α → Bool
  sin : α → α
  cos : α → α
  arctan : α → α
  /-- The angle of the point with ordinate the first and abscissa the second argument. -/
  arctan2 : α → α → α
  hypotenuse : α → α → α
  radiansPerDegree : α
  degreesPerRadian : α

namespace Scalar

variable {α : Type} [Scalar α]

def isZero (x : α) : Bool := equal x 0

def isPositive (x : α) : Bool := !atMost x 0

end Scalar

end EquivalentCircuit
