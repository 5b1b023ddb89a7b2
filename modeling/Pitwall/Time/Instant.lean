import Pitwall.Time.Calendar

/-!
# Instants — points in time to the nanosecond

An `Instant` counts seconds from the *zero time*, midnight before 1 January of the year 1,
which also stands for "never happened". A leap second is kept as second 59 with more than a
whole second of nanoseconds, in any minute.

The bounds of the calendar and of the nanoseconds are part of the type, so every instant can
be written and read again, and **`elapsed`** stays far inside of what a clock can show.
-/

namespace Pitwall

/-- Nanoseconds of a second. -/
def nanosPerSecond : Nat := 1000000000

def secondsPerDay : Int := 86400

/-- The first second of the calendar: the start of the year -262143. -/
def firstSecond : Int := daysBeforeYear (-262143) * secondsPerDay

/-- The last second of the calendar: the end of the year 262142. -/
def lastSecond : Int := daysBeforeYear 262143 * secondsPerDay - 1

/-- A point in time. -/
structure Instant where
  /-- Whole seconds since the zero time. -/
  second : Int
  /-- Nanoseconds within the second; a leap second has a second more of them. -/
  nano : Nat
  lower : firstSecond ≤ second
  upper : second ≤ lastSecond
  /-- A leap second adds one second at most. -/
  nano_lt : nano < 2 * nanosPerSecond
  /-- A leap second follows second 59. -/
  leap : nanosPerSecond ≤ nano → second % 60 = 59
  deriving DecidableEq

namespace Instant

theorem ext {s t : Instant} (hs : s.second = t.second) (hn : s.nano = t.nano) : s = t := by
  cases s; cases t; cases hs; cases hn; rfl

/-- The zero time, which means "never". -/
def zero : Instant :=
  ⟨0, 0, by decide, by decide, by decide, by decide⟩

instance : Inhabited Instant := ⟨zero⟩

/-- Whether an instant means "never": it does up to and within the zero second. -/
def isNever (t : Instant) : Bool := decide (t.second ≤ 0)

/-- Whether the instant lies in a leap second. -/
def isLeap (t : Instant) : Bool := decide (nanosPerSecond ≤ t.nano)

/-- Instants by second, then by nanosecond. -/
instance : Ord Instant :=
  ⟨fun s t => (compare s.second t.second).then (compare s.nano t.nano)⟩

theorem compare_def (s t : Instant) :
    compare s t = (compare s.second t.second).then (compare s.nano t.nano) := rfl

instance : Std.TransOrd Instant :=
  inferInstanceAs (Std.TransCmp
    (compareLex (compareOn Instant.second) (compareOn Instant.nano)))

instance : Std.LawfulEqOrd Instant where
  eq_of_compare {s t} h := by
    rw [compare_def, Ordering.then_eq_eq] at h
    exact ext (Std.LawfulEqOrd.eq_of_compare h.1) (Std.LawfulEqOrd.eq_of_compare h.2)
  compare_self {s} := by
    rw [compare_def, Ordering.then_eq_eq]
    exact ⟨Std.ReflOrd.compare_self, Std.ReflOrd.compare_self⟩

instance : LT Instant := ⟨fun s t => compare s t = .lt⟩
instance : LE Instant := ⟨fun s t => compare s t ≠ .gt⟩
instance (s t : Instant) : Decidable (s < t) := inferInstanceAs (Decidable (compare s t = .lt))
instance (s t : Instant) : Decidable (s ≤ t) := inferInstanceAs (Decidable (compare s t ≠ .gt))

/-- The second within the day. -/
def secondOfDay (t : Instant) : Int := t.second % secondsPerDay

/-- Whole seconds that a leap second at the earlier time of day adds to a difference. -/
def leapBetween (t now : Instant) : Int :=
  if t.secondOfDay < now.secondOfDay ∧ t.isLeap then 1
  else if now.secondOfDay < t.secondOfDay ∧ now.isLeap then -1
  else 0

/-- Nanoseconds from `t` until `now`; negative when `t` lies in the future. A leap second
counts where it lies at the earlier time of day. -/
def elapsed (t now : Instant) : Int :=
  (now.second - t.second + leapBetween t now) * nanosPerSecond + (now.nano - t.nano : Int)

end Instant

end Pitwall
