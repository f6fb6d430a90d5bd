import EquivalentCircuit.Decimal.Layout
import EquivalentCircuit.Text.Scan

/-! Number literals. A literal without point and exponent that fits a 64-bit integer is that
integer; any other is a binary64, found by scaling the digits that fit in 64 bits by a power of
ten. -/

namespace EquivalentCircuit

inductive JsonNumber where
  | integer (n : Int)
  | real (x : Float)
deriving DecidableEq

namespace JsonNumber

/-- A literal as written; `exponent` holds the sign and the digits. -/
structure Literal where
  negative : Bool
  whole : List Char
  fraction : List Char
  exponent : Option (Bool × List Char)

def scanDigits : Scan (List Char) := do
  let ds ← Scan.takeWhile Char.isDigit
  Scan.require (!ds.isEmpty)
  return ds

def scanWhole : Scan (List Char) := do
  let ds ← scanDigits
  Scan.require (ds.head? != some '0' || ds.length == 1)
  return ds

def scanExponent : Scan (Option (Bool × List Char)) := do
  match ← Scan.peek with
  | some 'e' | some 'E' =>
    let _ ← Scan.next
    let negative ← Scan.charIf '-'
    unless negative do
      let _ ← Scan.charIf '+'
    return some (negative, ← scanDigits)
  | _ => return none

def Literal.scan : Scan Literal := do
  let negative ← Scan.charIf '-'
  let whole ← scanWhole
  let fraction ← if ← Scan.charIf '.' then scanDigits else pure []
  return ⟨negative, whole, fraction, ← scanExponent⟩

def wordSize : Nat := Nat.pow 2 64

/-- Significant digits in a 64-bit word and the power of ten that goes with them. -/
structure Scaled where
  significand : Nat
  exponent : Int
  /-- A digit did not fit. -/
  full : Bool

/-- Digits before the point that do not fit raise the exponent. -/
def Scaled.addWhole (s : Scaled) (c : Char) : Scaled :=
  let wider := s.significand * 10 + digitValue c
  if s.full || wider ≥ wordSize then ⟨s.significand, s.exponent + 1, true⟩
  else ⟨wider, s.exponent, false⟩

/-- Digits after the point that do not fit are dropped, with all that follow. -/
def Scaled.addFraction (s : Scaled) (c : Char) : Scaled :=
  let wider := s.significand * 10 + digitValue c
  if s.full || wider ≥ wordSize then { s with full := true }
  else ⟨wider, s.exponent - 1, false⟩

def Literal.scaled (l : Literal) : Scaled :=
  let whole := l.whole.foldl Scaled.addWhole ⟨0, 0, false⟩
  l.fraction.foldl Scaled.addFraction { whole with full := false }

def powerOfTen (n : Nat) : Float := Float.ofScientific 1 false n

/-- `x · 10 ^ e` in steps that stay within the table of powers, or nothing beyond binary64. Three
steps bring any word below the smallest number. -/
def scale : Nat → Float → Int → Option Float
  | 0, x, _ => some x
  | fuel + 1, x, e =>
    if e.natAbs ≤ 308 then
      if 0 ≤ e then
        let y := x * powerOfTen e.natAbs
        if y.isInf then none else some y
      else some (x / powerOfTen e.natAbs)
    else if x == 0.0 then some x
    else if 0 ≤ e then none
    else scale fuel (x / powerOfTen 308) (e + 308)

/-- Exponents are kept in a 32-bit word; past it a number is zero or out of range. -/
def exponentLimit : Int := Int32.maxValue.toInt

def Literal.magnitude (l : Literal) : Option Float :=
  let s := l.scaled
  let x := s.significand.toUInt64.toFloat
  match l.exponent with
  | none => scale 4 x s.exponent
  | some (negative, digits) =>
    let e : Int := ofDigits 10 digits
    if e > exponentLimit then
      if s.significand = 0 || negative then some 0.0 else none
    else if negative then scale 4 x (max (s.exponent - e) (-exponentLimit - 1))
    else scale 4 x (min (s.exponent + e) exponentLimit)

def Literal.value (l : Literal) : Option JsonNumber :=
  let n := ofDigits 10 l.whole
  if l.fraction.isEmpty && l.exponent.isNone && !l.negative && n < wordSize then
    some (integer n)
  else if l.fraction.isEmpty && l.exponent.isNone && l.negative && 0 < n && n ≤ Nat.pow 2 63 then
    some (integer (-n))
  else
    l.magnitude.map fun x => real (if l.negative then -x else x)

def toFloat : JsonNumber → Float
  | integer (.ofNat n) => n.toUInt64.toFloat
  | integer (.negSucc n) => -(n + 1).toUInt64.toFloat
  | real x => x

end JsonNumber

end EquivalentCircuit
