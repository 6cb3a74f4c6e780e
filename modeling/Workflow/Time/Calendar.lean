/-!
# The calendar

Dates of the Gregorian calendar, carried back to the year 1, and their number counted from the
first of January of that year, which is day 0.

A year is leap when four divides it, unless a hundred divides it and four hundred does not.
-/

namespace Workflow

/-- A day of the calendar. -/
structure Date where
  year : Nat
  month : Nat
  day : Nat
  deriving DecidableEq, Repr

namespace Date

def isLeap (year : Nat) : Bool :=
  year % 4 == 0 && (year % 100 != 0 || year % 400 == 0)

/-- The lengths of the months of a year. -/
def monthLengths (year : Nat) : List Nat :=
  [31, if isLeap year then 29 else 28, 31, 30, 31, 30, 31, 31, 30, 31, 30, 31]

/-- The days before the first of January. -/
def daysBeforeYear (year : Nat) : Nat :=
  let y := year - 1
  y * 365 + y / 4 - y / 100 + y / 400

/-- The days of the year before the first of the month. -/
def daysBeforeMonth (year month : Nat) : Nat :=
  ((monthLengths year).take (month - 1)).foldr (· + ·) 0

/-- A date that the calendar has, within the years of four digits. -/
def isValid (d : Date) : Bool :=
  1 ≤ d.year && d.year ≤ 9999 && 1 ≤ d.month && d.month ≤ 12 && 1 ≤ d.day &&
    d.day ≤ (monthLengths d.year).getD (d.month - 1) 0

/-- The number of a date. -/
def toDays (d : Date) : Nat := daysBeforeYear d.year + daysBeforeMonth d.year d.month + (d.day - 1)

/-- The month and day on a day of a year, given the lengths of the months from `month` on. -/
def monthAndDay (month : Nat) : List Nat → Nat → Nat × Nat
  | [], rest => (month, rest + 1)
  | length :: lengths, rest =>
    if rest < length then (month, rest + 1) else monthAndDay (month + 1) lengths (rest - length)

/-- The year of a day, and the days of that year before it. A cycle has four centuries, a
century but the last 24 spans of four years with a leap year and one without. -/
def yearAndRest (days : Nat) : Nat × Nat :=
  let cycles := days / 146097
  let inCycle := days % 146097
  let centuries := min (inCycle / 36524) 3
  let inCentury := inCycle - centuries * 36524
  let spans := inCentury / 1461
  let inSpan := inCentury % 1461
  let years := min (inSpan / 365) 3
  (400 * cycles + 100 * centuries + 4 * spans + years + 1, inSpan - years * 365)

/-- The date of a number. -/
def ofDays (days : Nat) : Date :=
  let (year, rest) := yearAndRest days
  let (month, day) := monthAndDay 1 (monthLengths year) rest
  ⟨year, month, day⟩

/-- The day of the week of a date: Monday is 0. -/
def weekday (d : Date) : Nat := d.toDays % 7

/-- The date of a day (1 to 7) of a numbered week. Week 1 is the one with the first Thursday of
the year; week 53 exists in years that begin with a Thursday, or with a Wednesday if leap. -/
def ofWeek? (year week day : Nat) : Option Date :=
  let first := weekday ⟨year, 1, 1⟩
  let hasWeek53 := first == 3 || (first == 2 && isLeap year)
  if year < 1 || week < 1 || day < 1 || 7 < day || 53 < week || (week == 53 && !hasWeek53) then none
  else
    let start : Int := daysBeforeYear year - (first : Int) + (if first > 3 then 7 else 0)
    let days := start + 7 * ((week : Int) - 1) + ((day : Int) - 1)
    if days < 0 then none else some (ofDays days.toNat)

end Date

end Workflow
