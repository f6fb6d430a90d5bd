/-! The Gregorian calendar, extended to all years. -/

namespace EquivalentCircuit

namespace Calendar

def isLeapYear (year : Int) : Bool := 4 ∣ year ∧ (¬ 100 ∣ year ∨ 400 ∣ year)

def daysInMonth (year : Int) (month : Nat) : Nat :=
  if month = 2 then (if isLeapYear year then 29 else 28)
  else if month ∈ [4, 6, 9, 11] then 30 else 31

/-- The days before a year, counted from the first day of year 0. -/
def daysBeforeYear (year : Int) : Int :=
  let y := year - 1
  365 * year + y.fdiv 4 - y.fdiv 100 + y.fdiv 400 + 1

/-- The days before a month of a year. -/
def daysBeforeMonth (year : Int) (month : Nat) : Nat :=
  ((List.range (month - 1)).map fun m => daysInMonth year (m + 1)).foldr (· + ·) 0

/-- The number of a day, counted from 1970-01-01. -/
def dayNumber (year : Int) (month day : Nat) : Int :=
  daysBeforeYear year + daysBeforeMonth year month + day - 1 - 719528

/-- The year of a day: the mean length of a year errs by less than one year. -/
def yearOf (n : Int) : Int :=
  let guess := ((n + 719528) * 400).fdiv 146097
  if n < dayNumber guess 1 1 then guess - 1
  else if dayNumber (guess + 1) 1 1 ≤ n then guess + 1
  else guess

/-- The month and the day with a given number of days of the year before it, from a month on. -/
def monthAndDay (year : Int) (n month : Nat) : Nat → Nat × Nat
  | 0 => (month, n + 1)
  | more + 1 =>
    let length := daysInMonth year month
    if n < length then (month, n + 1) else monthAndDay year (n - length) (month + 1) more

/-- The year, month and day of a number. -/
def dateOf (n : Int) : Int × Nat × Nat :=
  let year := yearOf n
  (year, monthAndDay year (n - dayNumber year 1 1).toNat 1 11)

end Calendar

end EquivalentCircuit
