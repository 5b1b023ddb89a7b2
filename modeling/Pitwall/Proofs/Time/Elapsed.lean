import Pitwall.Time.Instant

/-!
# Elapsed time — on a clock without leap seconds

Leap seconds apart, instants are ordered as a clock shows them (**`Instant.onClock_le_of_le`**), and
the time between two of them is their difference on the clock: **`Instant.elapsed_eq`**.

An age is measured on that clock also from within a leap second: one within a day is second 59 once
more, and one at the end of a day is the first second of the next day (**`Instant.measuredFrom`**,
**`Instant.le_elapsed_iff`**). Either way the clock goes back by a second.
-/

namespace Pitwall

namespace Instant

/-- The nanoseconds that a clock without leap seconds shows. -/
def onClock (t : Instant) : Int := t.second * nanosPerSecond + t.nano

variable {s t now later : Instant}

theorem le_iff : s ≤ t ↔ s.second < t.second ∨ (s.second = t.second ∧ s.nano ≤ t.nano) := by
  show compare s t ≠ .gt ↔ _
  rw [compare_def, Ne, Ordering.then_eq_gt, Int.compare_eq_gt, Int.compare_eq_eq, Nat.compare_eq_gt]
  omega

/-- The clock goes on from an instant that is not in a leap second. -/
theorem onClock_le_of_le (hs : s.isLeap = false) (hle : s ≤ t) : s.onClock ≤ t.onClock := by
  have hnano : s.nano < 1000000000 := Nat.lt_of_not_le (of_decide_eq_false hs)
  have hscale : (nanosPerSecond : Int) = 1000000000 := rfl
  rw [le_iff] at hle
  rw [onClock, onClock, hscale]
  omega

/-- Leap seconds apart, what has passed is the difference on the clock. -/
theorem elapsed_eq (ht : t.isLeap = false) (hnow : now.isLeap = false) :
    t.elapsed now = now.onClock - t.onClock := by
  have hleap : t.leapBetween now = 0 := by
    rw [leapBetween]
    simp [ht, hnow]
  have hscale : (nanosPerSecond : Int) = 1000000000 := rfl
  rw [elapsed, hleap, onClock, onClock, hscale]
  omega

/-! ## Ages on the clock -/

/-- From where on that clock an age is measured: a leap second within a day is second 59 once more,
and one at the end of a day is the first second of the next day. -/
def measuredFrom (t : Instant) : Int :=
  if t.isLeap ∧ t.secondOfDay ≠ secondsPerDay - 1 then t.onClock - nanosPerSecond else t.onClock

variable {d : Int}

/-- An age that is short, but not too short, can be read off the clock. -/
theorem le_elapsed_iff (hd : 2 * nanosPerSecond ≤ d) (hd' : d ≤ 30 * nanosPerSecond) :
    d ≤ t.elapsed now ↔ t.measuredFrom + d ≤ now.onClock := by
  have hscale : nanosPerSecond = 1000000000 := rfl
  have ht := t.nano_lt
  have ht' := t.leap
  have hn := now.nano_lt
  have hn' := now.leap
  simp only [measuredFrom, onClock, elapsed, leapBetween, secondOfDay, isLeap, secondsPerDay,
    hscale, decide_eq_true_eq] at *
  -- which leap second counts goes by the times of day, and an age so short tells how they compare
  split <;> split <;> (try split) <;> omega

/-- The clock goes back by less than a second. -/
theorem measuredFrom_lt_of_le (hle : s ≤ t) :
    s.measuredFrom < t.measuredFrom + nanosPerSecond := by
  have hscale : nanosPerSecond = 1000000000 := rfl
  have hs := s.nano_lt
  have ht := t.nano_lt
  have hs' := s.leap
  have ht' := t.leap
  rw [le_iff] at hle
  simp only [measuredFrom, onClock, secondOfDay, isLeap, secondsPerDay, hscale,
    decide_eq_true_eq] at *
  split <;> split <;> omega

theorem measuredFrom_eq (ht : t.isLeap = false) : t.measuredFrom = t.onClock :=
  if_neg fun h => Bool.eq_false_iff.1 ht h.1

/-- Leap seconds apart, it does not go back. -/
theorem measuredFrom_le_of_le (hs : s.isLeap = false) (ht : t.isLeap = false) (hle : s ≤ t) :
    s.measuredFrom ≤ t.measuredFrom := by
  rw [measuredFrom_eq hs, measuredFrom_eq ht]
  exact onClock_le_of_le hs hle

/-- The clock shows every nanosecond of the calendar. -/
theorem exists_onClock {n : Int} (hlower : firstSecond * nanosPerSecond ≤ n)
    (hupper : n < (lastSecond + 1) * nanosPerSecond) : ∃ now : Instant, now.onClock = n := by
  have hscale : nanosPerSecond = 1000000000 := rfl
  rw [hscale] at hlower hupper
  refine ⟨⟨n / 1000000000, (n % 1000000000).toNat, by omega, by omega, by omega, by omega⟩, ?_⟩
  show n / 1000000000 * 1000000000 + ((n % 1000000000).toNat : Int) = n
  omega

/-- Where the clock has gone back, there is still time left in the calendar. -/
theorem exists_later (hle : s ≤ t) (hback : t.measuredFrom < s.measuredFrom)
    (hd : nanosPerSecond ≤ d) (hd' : d ≤ 30 * nanosPerSecond) :
    ∃ now : Instant, now.onClock = t.measuredFrom + d := by
  have hscale : nanosPerSecond = 1000000000 := rfl
  have hend : lastSecond % 86400 = 86399 := by decide
  have hs := s.nano_lt
  have ht := t.nano_lt
  have hs' := s.leap
  have ht' := t.leap
  have hlower := t.lower
  have hupper := t.upper
  rw [le_iff] at hle
  refine exists_onClock ?_ ?_ <;>
    simp only [measuredFrom, onClock, secondOfDay, isLeap, secondsPerDay, hscale,
      decide_eq_true_eq] at *
  · split <;> omega
  · -- a leap second within a day or a day that begins leaves at least a minute of the last day
    split at hback <;> split at hback <;> split <;> omega

end Instant

end Pitwall
