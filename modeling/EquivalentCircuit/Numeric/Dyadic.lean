/-! Binary64 numbers as exact dyadic fractions. `Dyadic.ofFloat` reads a number's bits into
`mantissa · 2 ^ exponent`; `Dyadic.round` finds the nearest binary64 to such a fraction, ties to
the even mantissa. -/

namespace EquivalentCircuit

/-- The magnitude `mantissa · 2 ^ exponent`. -/
structure Dyadic where
  mantissa : Nat
  exponent : Int
deriving DecidableEq

/-- What the bits of a binary64 number say. -/
inductive Binary64 where
  | notANumber
  | infinite (negative : Bool)
  | finite (negative : Bool) (magnitude : Dyadic)
deriving DecidableEq

namespace Binary64

/-- Digits of the mantissa that are stored. -/
def fractionBits : Nat := 52

/-- The exponent of the last mantissa bit of a subnormal number. -/
def leastExponent : Int := -1074

/-- The exponent of the last mantissa bit of the largest numbers. -/
def greatestExponent : Int := 971

def ofFloat (x : Float) : Binary64 :=
  let bits := x.toBits.toNat
  let negative := bits / Nat.pow 2 63 == 1
  let biased : Nat := bits / Nat.pow 2 fractionBits % Nat.pow 2 11
  let fraction : Nat := bits % Nat.pow 2 fractionBits
  if biased = 2047 then
    if fraction = 0 then infinite negative else notANumber
  else if biased = 0 then
    finite negative ⟨fraction, leastExponent⟩
  else
    finite negative ⟨Nat.pow 2 fractionBits + fraction, Int.ofNat biased - 1 + leastExponent⟩

end Binary64

namespace Dyadic

/-- The quotient by `2 ^ shift`, rounded to nearest, a half going to the even neighbour. -/
def shiftRound (n shift : Nat) : Nat :=
  let unit := Nat.pow 2 shift
  let whole := n / unit
  let twice := 2 * (n % unit)
  if twice > unit || (twice == unit && whole % 2 == 1) then whole + 1 else whole

/-- The positive binary64 with the given exponent of the last bit and a mantissa below
`2 ^ 53 + 1`, or infinity. -/
def assemble (mantissa : Nat) (exponent : Int) : Float :=
  let carried := mantissa == Nat.pow 2 (Binary64.fractionBits + 1)
  let mantissa := if carried then mantissa / 2 else mantissa
  let exponent := if carried then exponent + 1 else exponent
  if exponent > Binary64.greatestExponent then
    Float.ofBits 0x7ff0000000000000
  else if mantissa < Nat.pow 2 Binary64.fractionBits then
    Float.ofBits mantissa.toUInt64
  else
    let biased := (exponent - Binary64.leastExponent).toNat + 1
    let implied := Nat.pow 2 Binary64.fractionBits
    Float.ofBits (biased * implied + (mantissa - implied)).toUInt64

/-- The nearest binary64. -/
def round (d : Dyadic) : Float :=
  let size : Int := d.mantissa.log2
  let last := max (d.exponent + size - Binary64.fractionBits) Binary64.leastExponent
  if d.mantissa = 0 then 0.0
  else if last ≤ d.exponent then assemble (d.mantissa * Nat.pow 2 (d.exponent - last).toNat) last
  else assemble (shiftRound d.mantissa (last - d.exponent).toNat) last

/-- The same magnitude written with the exponent `e`, which must not be above its own. -/
def mantissaAt (d : Dyadic) (e : Int) : Nat := d.mantissa * Nat.pow 2 (d.exponent - e).toNat

/-- The square root of `d² + e²` to 64 bits or more, its last bit set when it is not exact, so
that rounding it further rounds the exact root. -/
def hypotenuse (d e : Dyadic) : Dyadic :=
  let low := min d.exponent e.exponent
  let square := d.mantissaAt low * d.mantissaAt low + e.mantissaAt low * e.mantissaAt low
  let shift := 64 - square.log2 / 2
  let scaled := square * Nat.pow 4 shift
  let root := Nat.sqrt scaled
  ⟨2 * root + (if root * root = scaled then 0 else 1), low - shift - 1⟩

end Dyadic

end EquivalentCircuit
