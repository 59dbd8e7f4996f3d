/-!
# The calendar

Dates of the Gregorian calendar, with a year zero and negative years before it, and their day
numbers, counted from the first day of 1970.
-/

namespace Telltale

/-- A date. -/
structure Date where
  year : Int
  month : Nat
  day : Nat
  deriving DecidableEq

namespace Date

/-- Whether a year has a leap day. -/
def isLeapYear (year : Int) : Bool := year % 4 == 0 && (year % 100 != 0 || year % 400 == 0)

/-- The number of days of a month. -/
def daysInMonth (year : Int) (month : Nat) : Nat :=
  if month = 2 then (if isLeapYear year then 29 else 28)
  else if month = 4 ∨ month = 6 ∨ month = 9 ∨ month = 11 then 30
  else 31

/-- The first year that has timestamps. -/
def firstYear : Int := -262143

/-- The last year that has timestamps. -/
def lastYear : Int := 262142

/-- Whether the date exists in a year that has timestamps. -/
def isValid (d : Date) : Bool :=
  firstYear ≤ d.year && d.year ≤ lastYear && 1 ≤ d.month && d.month ≤ 12 && 1 ≤ d.day &&
    d.day ≤ daysInMonth d.year d.month

/-- The days of four hundred years. -/
def daysPerCycle : Int := 146097

/-- The days from the first of March of the year zero to the first day of 1970. -/
def daysBefore1970 : Int := 719468

/-- The day number. The year is taken to begin in March, so that the leap day is its last one. -/
def toDay (d : Date) : Int :=
  let year := if d.month ≤ 2 then d.year - 1 else d.year
  let month : Int := if d.month ≤ 2 then d.month + 9 else d.month - 3
  let ofYear := year % 400
  let days := ofYear * 365 + ofYear / 4 - ofYear / 100 + (153 * month + 2) / 5 + d.day - 1
  year / 400 * daysPerCycle + days - daysBefore1970

/-- The date of a day number. -/
def ofDay (n : Int) : Date :=
  let n := n + daysBefore1970
  let days := n % daysPerCycle
  let ofYear := (days - days / 1460 + days / 36524 - days / 146096) / 365
  let rest := days - (365 * ofYear + ofYear / 4 - ofYear / 100)
  let month := (5 * rest + 2) / 153
  let day := (rest - (153 * month + 2) / 5 + 1).toNat
  let year := n / daysPerCycle * 400 + ofYear
  if month < 10 then ⟨year, (month + 3).toNat, day⟩ else ⟨year + 1, (month - 9).toNat, day⟩

end Date

end Telltale
