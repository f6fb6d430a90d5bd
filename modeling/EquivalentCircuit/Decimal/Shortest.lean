import EquivalentCircuit.Numeric.Dyadic

/-! The fewest decimal digits that read back to a binary64 number. The reals that round to a number
form an interval around it; of the decimal grids `10 ^ g`, from coarse to fine, the first with a
point in that interval gives the digits, and of two such points the nearer one. -/

namespace EquivalentCircuit

/-- Where a value halfway between two decimals goes. -/
inductive Tie where
  | up
  | even
deriving DecidableEq

/-- The decimal `units · 10 ^ exponent`. -/
structure Decimal where
  units : Nat
  exponent : Int
deriving DecidableEq

namespace Decimal

/-- The same decimal without trailing zeros; the fuel bounds their number. -/
def trim : Nat → Decimal → Decimal
  | 0, d => d
  | fuel + 1, d =>
    if d.units ≠ 0 ∧ d.units % 10 = 0 then trim fuel ⟨d.units / 10, d.exponent + 1⟩ else d

/-- The digits, most significant first. -/
def digits (d : Decimal) : List Char := Nat.toDigits 10 d.units

/-- The power of ten of the first digit. -/
def leading (d : Decimal) : Int := d.exponent + (d.digits.length - 1 : Nat)

end Decimal

namespace Dyadic

/-- Quarters of the unit in the last place down to the reals that round to the number below: half
a unit, but a quarter where the numbers below lie twice as dense. -/
def lowerGap (d : Dyadic) : Nat :=
  if d.mantissa = Nat.pow 2 Binary64.fractionBits ∧ d.exponent ≠ Binary64.leastExponent then 1 else 2

/-- What a quarter unit counts when compared with points of the grid `10 ^ g`. -/
def quarterWeight (d : Dyadic) (g : Int) : Nat :=
  Nat.pow 2 (d.exponent - 2).toNat * Nat.pow 10 (-g).toNat

/-- What a step of the grid `10 ^ g` counts when compared with quarter units. -/
def gridWeight (d : Dyadic) (g : Int) : Nat :=
  Nat.pow 10 g.toNat * Nat.pow 2 (2 - d.exponent).toNat

/-- Does the point `k · 10 ^ g` round to `d`? The ends of the interval do if the mantissa is even. -/
def holds (d : Dyadic) (g : Int) (k : Nat) : Bool :=
  let point := k * d.gridWeight g
  let low := (4 * d.mantissa - d.lowerGap) * d.quarterWeight g
  let high := (4 * d.mantissa + 2) * d.quarterWeight g
  if d.mantissa % 2 = 0 then low ≤ point && point ≤ high else low < point && point < high

/-- The nearer of the two neighbours `k` and `k + 1` of `d` on the grid `10 ^ g`. -/
def nearer (d : Dyadic) (tie : Tie) (g : Int) (k : Nat) : Nat :=
  let twice := 8 * d.mantissa * d.quarterWeight g
  let middle := (2 * k + 1) * d.gridWeight g
  if twice < middle then k
  else if middle < twice then k + 1
  else match tie with
    | .up => k + 1
    | .even => if k % 2 = 0 then k else k + 1

/-- The point of the grid `10 ^ g` that stands for `d`, if the grid has one. -/
def onGrid? (d : Dyadic) (tie : Tie) (g : Int) : Option Decimal :=
  let k := 4 * d.mantissa * d.quarterWeight g / d.gridWeight g
  match d.holds g k, d.holds g (k + 1) with
  | true, true => some ⟨d.nearer tie g k, g⟩
  | true, false => some ⟨k, g⟩
  | false, true => some ⟨k + 1, g⟩
  | false, false => none

/-- The power of ten of the first digit of a positive magnitude. -/
def leadingPower (d : Dyadic) : Int :=
  let guess := ((d.exponent + d.mantissa.log2) * 30103) / 100000
  let below (p : Int) : Bool := 4 * d.mantissa * d.quarterWeight p < d.gridWeight p
  if below guess then guess - 1 else if below (guess + 1) then guess else guess + 1

/-- Seventeen digits always read back. -/
def shortest (d : Dyadic) (tie : Tie) : Decimal :=
  if d.mantissa = 0 then ⟨0, 0⟩
  else
    let power := d.leadingPower
    let found := (List.range 17).findSome? fun (n : Nat) => d.onGrid? tie (power - n)
    (found.getD ⟨0, 0⟩).trim 17

/-- The magnitude in units of `10 ^ -places`, a half going to the even neighbour. -/
def roundAt (d : Dyadic) (places : Nat) : Nat :=
  let numerator := d.mantissa * Nat.pow 2 d.exponent.toNat * Nat.pow 10 places
  let denominator := Nat.pow 2 (-d.exponent).toNat
  let whole := numerator / denominator
  let twice := 2 * (numerator % denominator)
  if twice > denominator || (twice == denominator && whole % 2 == 1) then whole + 1 else whole

end Dyadic

end EquivalentCircuit
