import EquivalentCircuit.Text.Scan
import EquivalentCircuit.Time.Calendar
import EquivalentCircuit.Toml.Value

/-! The unquoted values of TOML: flags, numbers, dates and times. They are told apart by their whole
text. -/

namespace EquivalentCircuit

namespace Toml

/-- Digits with single underscores between them. -/
def isGrouped (isDigit : Char → Bool) : List Char → Bool
  | [] => false
  | [c] => isDigit c
  | c :: '_' :: cs => isDigit c && isGrouped isDigit cs
  | c :: cs => isDigit c && isGrouped isDigit cs

def unsigned : List Char → List Char
  | '+' :: cs => cs
  | '-' :: cs => cs
  | cs => cs

def ungroup (cs : List Char) : List Char := cs.filter (· ≠ '_')

/-- A decimal number without leading zeros. -/
def isWhole (cs : List Char) : Bool :=
  isGrouped Char.isDigit cs && (cs.head? ≠ some '0' || cs.length = 1)

def isInteger (cs : List Char) : Bool :=
  match cs with
  | '0' :: 'x' :: ds => isGrouped isHexDigit ds && ofDigits 16 (ungroup ds) < Nat.pow 2 63
  | '0' :: 'o' :: ds =>
    isGrouped (fun c => '0' ≤ c && c ≤ '7') ds && ofDigits 8 (ungroup ds) < Nat.pow 2 63
  | '0' :: 'b' :: ds =>
    isGrouped (fun c => c = '0' || c = '1') ds && ofDigits 2 (ungroup ds) < Nat.pow 2 63
  | _ =>
    let n := ofDigits 10 (ungroup (unsigned cs))
    isWhole (unsigned cs) && (n < Nat.pow 2 63 || (cs.head? = some '-' && n = Nat.pow 2 63))

/-- The magnitude of a decimal number with a fraction or an exponent. -/
def float? (cs : List Char) : Option Float := do
  let (whole, rest) := cs.span fun c => c.isDigit || c = '_'
  guard (isWhole whole)
  let (fraction, rest) ← match rest with
    | '.' :: rest =>
      let (fraction, rest) := rest.span fun c => c.isDigit || c = '_'
      guard (isGrouped Char.isDigit fraction)
      pure (fraction, rest)
    | _ =>
      guard !rest.isEmpty
      pure ([], rest)
  let exponent ← match rest with
    | [] => pure (0 : Int)
    | c :: rest =>
      guard (c = 'e' || c = 'E')
      let digits := unsigned rest
      guard (isGrouped Char.isDigit digits)
      let n : Int := ofDigits 10 (ungroup digits)
      pure (if rest.head? = some '-' then -n else n)
  let fraction := ungroup fraction
  let power := exponent - fraction.length
  return Float.ofScientific (ofDigits 10 (ungroup whole ++ fraction)) (power < 0) power.natAbs

/-- A number with a fraction or an exponent; it may exceed binary64 only below zero. -/
def isFloat (cs : List Char) : Bool :=
  unsigned cs = "inf".toList || unsigned cs = "nan".toList ||
    match float? (unsigned cs) with
    | some x => x.isFinite || cs.head? = some '-'
    | none => false

/-- A number of exactly two digits within bounds. -/
def scanTwo (low high : Nat) : Scan Unit := do
  let ds ← Scan.take 2
  Scan.require (ds.all Char.isDigit && low ≤ ofDigits 10 ds && ofDigits 10 ds ≤ high)

def scanDate : Scan Unit := do
  let year ← Scan.take 4
  Scan.require (year.all Char.isDigit)
  Scan.char '-'
  let month ← Scan.take 2
  Scan.require (month.all Char.isDigit && 1 ≤ ofDigits 10 month && ofDigits 10 month ≤ 12)
  Scan.char '-'
  scanTwo 1 (Calendar.daysInMonth (ofDigits 10 year : Nat) (ofDigits 10 month))

def scanTime : Scan Unit := do
  scanTwo 0 23
  Scan.char ':'
  scanTwo 0 59
  Scan.char ':'
  scanTwo 0 60
  if ← Scan.charIf '.' then
    let ds ← Scan.takeWhile Char.isDigit
    Scan.require !ds.isEmpty

def scanOffset : Scan Unit := do
  match ← Scan.peek with
  | none => pure ()
  | some c =>
    let _ ← Scan.next
    unless c = 'Z' || c = 'z' do
      Scan.require (c = '+' || c = '-')
      scanTwo 0 23
      Scan.char ':'
      scanTwo 0 59

/-- A date and a time with the character between them taken out of account. -/
def scanDateTime : Scan Unit := do
  scanDate
  if (← Scan.peek).isSome then
    let c ← Scan.next
    Scan.require (c = 'T' || c = 't' || c = ' ')
    scanTime
    scanOffset

def isDate (cs : List Char) : Bool := (Scan.whole scanDate cs).isSome

def isTime (cs : List Char) : Bool :=
  (Scan.whole scanDateTime cs).isSome || (Scan.whole scanTime cs).isSome

/-- The value of an unquoted word. -/
def ofWord? (cs : List Char) : Option Toml :=
  if cs = "true".toList then some (bool true)
  else if cs = "false".toList then some (bool false)
  else if isTime cs then some time
  else if isFloat cs || isInteger cs then some number
  else none

end Toml

end EquivalentCircuit
