/-!
# Calendar — dates and day numbers

The proleptic Gregorian calendar. Days are counted from 1 January of the year 1, which is
day 0; years before the year 1 run through 0 into the negative.

`Date.dayNumber` counts the days before a date, `Date.ofDayNumber` finds the date again: the
year by an estimate that is off by one at most, the month by walking through the months.
-/

namespace Pitwall

/-- Whether a year has a 29 February. -/
def isLeapYear (year : Int) : Bool :=
  year % 4 == 0 && (year % 100 != 0 || year % 400 == 0)

/-- The lengths of the months, January first. -/
def monthLengths (leap : Bool) : List Nat :=
  [31, if leap then 29 else 28, 31, 30, 31, 30, 31, 31, 30, 31, 30, 31]

/-- The days before 1 January of a year. -/
def daysBeforeYear (year : Int) : Int :=
  let past := year - 1
  365 * past + past / 4 - past / 100 + past / 400

structure Date where
  /-- The year; 0 and negative years come before the year 1. -/
  year : Int
  /-- The month, from 1. -/
  month : Nat
  /-- The day of the month, from 1. -/
  day : Nat
  deriving DecidableEq, Repr

namespace Date

/-- The length of the date's month; no month outside of 1 to 12 has days. -/
def monthLength (d : Date) : Nat :=
  if d.month = 0 then 0 else (monthLengths (isLeapYear d.year)).getD (d.month - 1) 0

/-- Whether the date exists. -/
def exists? (d : Date) : Bool := decide (1 ≤ d.day ∧ d.day ≤ d.monthLength)

/-- The days of its year before the month of the date. -/
def daysBeforeMonth (d : Date) : Nat :=
  ((monthLengths (isLeapYear d.year)).take (d.month - 1)).foldl (· + ·) 0

/-- The days before the date. -/
def dayNumber (d : Date) : Int := daysBeforeYear d.year + d.daysBeforeMonth + d.day - 1

end Date

/-- The year of a day. A year is 146097 / 400 days long on average, so the estimate is off by
one at most. -/
def yearOfDay (day : Int) : Int :=
  let estimate := 400 * day / 146097 + 1
  if day < daysBeforeYear estimate then estimate - 1
  else if daysBeforeYear (estimate + 1) ≤ day then estimate + 1
  else estimate

/-- Finds month and day of the month from the days that have passed in the year, walking
through the months from the given one on. -/
def monthAndDay : List Nat → Nat → Nat → Nat × Nat
  | [], month, passed => (month, passed + 1)
  | length :: lengths, month, passed =>
    if passed < length then (month, passed + 1)
    else monthAndDay lengths (month + 1) (passed - length)

def Date.ofDayNumber (day : Int) : Date :=
  let year := yearOfDay day
  let passed := (day - daysBeforeYear year).toNat
  let (month, dayOfMonth) := monthAndDay (monthLengths (isLeapYear year)) 1 passed
  ⟨year, month, dayOfMonth⟩

end Pitwall
