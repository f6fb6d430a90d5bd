import EquivalentCircuit.Numeric.Scalar
import EquivalentCircuit.Numeric.Dyadic

/-! Binary64 as a `Scalar`: the reading the program runs. -/

namespace EquivalentCircuit

/-- The length of the hypotenuse, rounded once. An infinite leg wins over one that is no number. -/
def hypotenuse (x y : Float) : Float :=
  match Binary64.ofFloat x, Binary64.ofFloat y with
  | .infinite _, _ | _, .infinite _ => Float.ofBits 0x7ff0000000000000
  | .finite _ d, .finite _ e => (d.hypotenuse e).round
  | _, _ => 0.0 / 0.0

instance : Scalar Float where
  zero := 0.0
  one := 1.0
  ofInt := Float.ofInt
  half := 0.5
  isFinite := Float.isFinite
  equal x y := x == y
  atMost x y := decide (x ≤ y)
  sin := Float.sin
  cos := Float.cos
  arctan := Float.atan
  arctan2 := Float.atan2
  hypotenuse := hypotenuse
  radiansPerDegree := 3.14159265358979323846264338327950288 / 180.0
  degreesPerRadian := 57.2957795130823208767981548141051703

end EquivalentCircuit
