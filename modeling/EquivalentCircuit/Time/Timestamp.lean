import EquivalentCircuit.Text.Scan
import EquivalentCircuit.Time.Calendar

/-! Points in time and their texts after RFC 3339. Reading is generous: blanks may stand around the
parts of a date and a time, and numbers may be short. -/

namespace EquivalentCircuit

structure Timestamp where
  /-- Seconds since the first moment of 1970 in universal time. -/
  seconds : Int
  /-- Nanoseconds; a leap second counts as those from one second on. -/
  nanos : Nat
deriving DecidableEq

/-- White space of all scripts. -/
def isWhiteSpace (c : Char) : Bool :=
  ('\t' ≤ c && c ≤ '\r') || c = ' ' || c = '\x85' || c = '\u00a0' || c = '\u1680' ||
    ('\u2000' ≤ c && c ≤ '\u200a') || c = '\u2028' || c = '\u2029' || c = '\u202f' ||
    c = '\u205f' || c = '\u3000'

namespace Timestamp

/-- The nanoseconds of a second. -/
def unit : Nat := 1000000000

def skipSpace : Scan Unit := do
  let _ ← Scan.takeWhile isWhiteSpace

/-- A number of at least one and at most `most` digits. -/
def scanNumber (most : Nat) : Scan Nat := do
  let s ← Scan.rest
  let ds := (s.take most).takeWhile Char.isDigit
  Scan.require !ds.isEmpty
  set (s.drop ds.length)
  return ofDigits 10 ds

/-- A number after blanks, within bounds. -/
def scanPart (low high : Nat) : Scan Nat := do
  skipSpace
  let n ← scanNumber 2
  Scan.require (low ≤ n && n ≤ high)
  return n

/-- A separator after blanks. -/
def scanMark (c : Char) : Scan Unit := do
  skipSpace
  Scan.char c

/-- A year of at most four digits, or of any number of them after a sign. -/
def scanYear : Scan Int := do
  skipSpace
  let many := (← Scan.rest).length
  if ← Scan.charIf '-' then return -(← scanNumber many : Nat)
  else if ← Scan.charIf '+' then return (← scanNumber many : Nat)
  else return (← scanNumber 4 : Nat)

/-- The calendar ends here on both sides. -/
def firstYear : Int := -262143

def lastYear : Int := 262142

/-- The number of a day that the calendar has. -/
def scanDate : Scan Int := do
  let year ← scanYear
  Scan.require (firstYear ≤ year && year ≤ lastYear)
  scanMark '-'
  let month ← scanPart 1 12
  scanMark '-'
  let day ← scanPart 1 31
  Scan.require (day ≤ Calendar.daysInMonth year month)
  return Calendar.dayNumber year month day

/-- Seconds and nanoseconds of a day. -/
def scanClock : Scan (Nat × Nat) := do
  let hour ← scanPart 0 23
  scanMark ':'
  let minute ← scanPart 0 59
  scanMark ':'
  let second ← scanPart 0 60
  let fraction ←
    if ← Scan.charIf '.' then do
      let ds ← Scan.takeWhile Char.isDigit
      Scan.require !ds.isEmpty
      pure (ofDigits 10 ((ds ++ List.replicate 9 '0').take 9))
    else pure 0
  let leap := second = 60
  return (3600 * hour + 60 * minute + (if leap then 59 else second),
    fraction + (if leap then unit else 0))

/-- Two digits up to a bound. -/
def scanTwo (high : Nat) : Scan Nat := do
  let ds ← Scan.take 2
  Scan.require (ds.all Char.isDigit && ofDigits 10 ds ≤ high)
  return ofDigits 10 ds

/-- The offset from universal time in seconds. -/
def scanOffset : Scan Int := do
  let s ← Scan.rest
  if (s.take 3).map Char.toUpper = ['U', 'T', 'C'] then
    set (s.drop 3)
    return 0
  let sign ← Scan.next
  if sign = 'Z' || sign = 'z' then return 0
  Scan.require (sign = '+' || sign = '-' || sign = '\u2212')
  let hours ← scanTwo 23
  let _ ← Scan.takeWhile fun c => c = ':' || isWhiteSpace c
  let minutes ← scanTwo 59
  let offset : Int := 3600 * hours + 60 * minutes
  return if sign = '+' then offset else -offset

/-- Does the calendar have the day of this second? -/
def isCovered (seconds : Int) : Bool :=
  86400 * Calendar.dayNumber firstYear 1 1 ≤ seconds &&
    seconds < 86400 * Calendar.dayNumber (lastYear + 1) 1 1

def scan : Scan Timestamp := do
  let day ← scanDate
  let separator ← Scan.next
  Scan.require (separator = 'T' || separator = 't' || separator = ' ')
  let (seconds, nanos) ← scanClock
  skipSpace
  let offset ← scanOffset
  skipSpace
  let seconds := 86400 * day + seconds - offset
  Scan.require (isCovered seconds)
  return ⟨seconds, nanos⟩

def read? (s : String) : Option Timestamp := Scan.whole scan s.toList

/-- A number with leading zeros up to a width. -/
def padded (width n : Nat) : String :=
  let ds := Nat.toDigits 10 n
  String.ofList (List.replicate (width - ds.length) '0' ++ ds)

/-- A year of four digits; any other has a sign. -/
def yearText (year : Int) : String :=
  if 0 ≤ year ∧ year ≤ 9999 then padded 4 year.toNat
  else (if year < 0 then "-" else "+") ++ padded 4 year.natAbs

/-- A fraction of three, six or nine digits, whichever is the first to hold it. -/
def fractionText (nanos : Nat) : String :=
  if nanos = 0 then ""
  else if nanos % 1000000 = 0 then "." ++ padded 3 (nanos / 1000000)
  else if nanos % 1000 = 0 then "." ++ padded 6 (nanos / 1000)
  else "." ++ padded 9 nanos

/-- The text in universal time. -/
def text (s : Timestamp) : String :=
  let day := s.seconds.fdiv 86400
  let clock := (s.seconds - 86400 * day).toNat
  let (year, month, dayOfMonth) := Calendar.dateOf day
  yearText year ++ "-" ++ padded 2 month ++ "-" ++ padded 2 dayOfMonth ++ "T" ++
    padded 2 (clock / 3600) ++ ":" ++ padded 2 (clock / 60 % 60) ++ ":" ++
    padded 2 (clock % 60 + s.nanos / unit) ++ fractionText (s.nanos % unit) ++ "Z"

end Timestamp

end EquivalentCircuit
