import EquivalentCircuit.Decimal.Shortest

/-! Numbers as text. A `Layout` holds a format's decisions: where positional notation ends and
whether a whole number keeps its point. -/

namespace EquivalentCircuit

structure Layout where
  tie : Tie
  /-- Is a number whose first digit stands at this power of ten written without an exponent? -/
  positional : Int → Bool
  /-- Do whole numbers end in `.0`? -/
  pointed : Bool

/-- Numbers inside messages: never an exponent, and no point without a fraction. -/
def Layout.message : Layout := ⟨.up, fun _ => true, false⟩

/-- Numbers inside JSON texts: positional from `0.00001` up to, not including, `1e16`, always
with a point there; an exponent carries its sign. -/
def Layout.json : Layout := ⟨.even, fun p => -5 ≤ p && p ≤ 15, true⟩

namespace Decimal

def zeros (n : Nat) : List Char := List.replicate n '0'

def positionalText (d : Decimal) (pointed : Bool) : List Char :=
  let ds := d.digits
  let whole := (d.leading + 1).toNat
  if 0 ≤ d.exponent then
    ds ++ zeros d.exponent.toNat ++ (if pointed then ['.', '0'] else [])
  else if 0 < whole then
    ds.take whole ++ '.' :: ds.drop whole
  else
    '0' :: '.' :: zeros (-d.leading - 1).toNat ++ ds

def exponentText (d : Decimal) : List Char :=
  let mantissa := match d.digits with
    | [] => []
    | [c] => [c]
    | c :: rest => c :: '.' :: rest
  let sign := if d.leading < 0 then '-' else '+'
  mantissa ++ 'e' :: sign :: Nat.toDigits 10 d.leading.natAbs

def text (d : Decimal) (layout : Layout) : List Char :=
  if d.units = 0 || layout.positional d.leading then d.positionalText layout.pointed
  else d.exponentText

/-- Units of `10 ^ -places` with exactly that many digits after the point. -/
def fixedText (units places : Nat) : List Char :=
  let ds := Nat.toDigits 10 units
  let ds := zeros (places + 1 - ds.length) ++ ds
  let whole := ds.length - places
  if places = 0 then ds else ds.take whole ++ '.' :: ds.drop whole

end Decimal

def signed (negative : Bool) (magnitude : List Char) : String :=
  String.ofList (if negative then '-' :: magnitude else magnitude)

/-- A number in the shortest digits that read back. -/
def numberText (layout : Layout) (x : Float) : String :=
  match Binary64.ofFloat x with
  | .notANumber => "NaN"
  | .infinite negative => signed negative "inf".toList
  | .finite negative d => signed negative ((d.shortest layout.tie).text layout)

/-- A number with exactly `places` digits after the point; a negative zero keeps its sign. -/
def fixedText (places : Nat) (x : Float) : String :=
  match Binary64.ofFloat x with
  | .notANumber => "NaN"
  | .infinite negative => signed negative "inf".toList
  | .finite negative d => signed negative (Decimal.fixedText (d.roundAt places) places)

end EquivalentCircuit
