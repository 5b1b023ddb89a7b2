import Pitwall.Board.OfSnapshot
import Pitwall.Board.Progress
import Pitwall.Proofs.Time.Elapsed

/-!
# The session clock — exact, and only running down

Leap seconds apart, what has passed is a difference on the clock (**`Instant.elapsed_eq`**), so the
clock of a session shows what is left until it starts or ends (**`Board.progress_eq`**). Until the
end, that is the time up to **`Board.endsAt`** in every case, whether it is shown as a countdown, in
days and a rest or not at all (**`Board.untilEnd_progress`**).

Durations are held in a limited number of milliseconds. **`Board.progress?`** works the clock out by
durations that can be held alone, and comes to the same result for every board at every time:
**`Board.progress?_eq`**. Both together are **`Board.progress_runs_down`**.
-/

namespace Pitwall

namespace Progress

/-- What is left until the end of a session that lasts so long. -/
def untilEnd (length : Int) : Progress → Int
  | .countdown remaining => remaining + length
  | .timeRemaining days rest => days * nanosPerDay + rest
  | .lapsRemaining _ => 0
  | .indeterminate => 0

end Progress

namespace Board

variable {b : Board} {now later : Instant}

/-- The time on the clock at which the session starts. -/
def startsAt (b : Board) : Int :=
  b.startedAt.onClock + b.session.waitSeconds.toNat * nanosPerSecond

/-- The time that a session lasts that runs on time. -/
def runsFor (b : Board) : Int := b.session.minutes.toNat * nanosPerMinute

/-- The time on the clock at which the session ends. -/
def endsAt (b : Board) : Int := b.startsAt + b.runsFor

theorem runsFor_nonneg (b : Board) : 0 ≤ b.runsFor :=
  Int.mul_nonneg (Int.natCast_nonneg _) (by decide)

/-- Leap seconds apart, the session clock goes by the time on the clock. -/
theorem progress_eq (hready : b.initialised = true) (hstart : b.startedAt.isLeap = false)
    (hnow : now.isLeap = false) :
    b.progress now =
      if now.onClock < b.startsAt then .countdown (b.startsAt - now.onClock)
      else if 0 < b.session.minutes then
        .timeRemaining (max (b.endsAt - now.onClock) 0 / nanosPerDay)
          (max (b.endsAt - now.onClock) 0 % nanosPerDay)
      else if 0 < b.session.laps then
        .lapsRemaining (b.session.laps.toNat - (b.leader?.elim 0 Driver.totalLaps).toNat)
      else .indeterminate := by
  have hwait : b.startedAt.elapsed now < b.session.waitSeconds.toNat * nanosPerSecond ↔
      now.onClock < b.startsAt := by
    rw [Instant.elapsed_eq hstart hnow, startsAt]
    omega
  have hcount : b.session.waitSeconds.toNat * nanosPerSecond - b.startedAt.elapsed now =
      b.startsAt - now.onClock := by
    rw [Instant.elapsed_eq hstart hnow, startsAt]
    omega
  have hrest : b.session.minutes.toNat * nanosPerMinute +
      b.session.waitSeconds.toNat * nanosPerSecond - b.startedAt.elapsed now =
      b.endsAt - now.onClock := by
    rw [Instant.elapsed_eq hstart hnow, endsAt, startsAt, runsFor]
    omega
  simp only [progress, hready, Bool.not_true, Bool.false_eq_true, if_false, hwait, hcount, hrest]

/-- The clock counts down just until the session starts. -/
theorem progress_eq_countdown_iff (hready : b.initialised = true)
    (hstart : b.startedAt.isLeap = false) (hnow : now.isLeap = false) {remaining : Int} :
    b.progress now = .countdown remaining ↔
      now.onClock < b.startsAt ∧ remaining = b.startsAt - now.onClock := by
  rw [progress_eq hready hstart hnow]
  split
  · next hearly =>
    rw [Progress.countdown.injEq]
    exact ⟨fun h => ⟨hearly, h.symm⟩, fun h => h.2.symm⟩
  · next hstarted =>
    refine ⟨fun h => ?_, fun h => absurd h.1 hstarted⟩
    split at h
    · cases h
    · split at h <;> cases h

/-- **WHAT IS LEFT UNTIL THE END** is what the clock says, whatever it shows. -/
theorem untilEnd_progress (hready : b.initialised = true) (hstart : b.startedAt.isLeap = false)
    (hnow : now.isLeap = false) :
    (b.progress now).untilEnd b.runsFor = max (b.endsAt - now.onClock) 0 := by
  have hruns := b.runsFor_nonneg
  rw [progress_eq hready hstart hnow]
  split
  · rw [Progress.untilEnd, endsAt]
    omega
  · next hstarted =>
    split
    · exact Int.ediv_mul_add_emod _ _
    · next hminutes =>
      have hzero : b.runsFor = 0 := by
        have hnone : b.session.minutes.toNat = 0 :=
          Nat.eq_zero_of_not_pos fun hpos => hminutes (UInt16.lt_iff_toNat_lt.2 hpos)
        rw [runsFor, hnone]
        rfl
      have hover : max (b.endsAt - now.onClock) 0 = 0 := by
        rw [endsAt, hzero]
        omega
      rw [hover]
      split <;> rfl

end Board

/-! ## Durations that can be held -/

/-- The longest duration that can be held: as many milliseconds as a signed word of 64 bits. -/
def longestSpan : Int := Int64.maxValue.toInt * 1000000

/-- A duration, if it can be held. -/
def span? (nanos : Int) : Option Int :=
  if -longestSpan ≤ nanos ∧ nanos ≤ longestSpan then some nanos else none

theorem span?_eq {nanos : Int} (hlower : -longestSpan ≤ nanos) (hupper : nanos ≤ longestSpan) :
    span? nanos = some nanos :=
  if_pos ⟨hlower, hupper⟩

namespace Instant

/-- What lies between two dates. -/
def betweenDates (t now : Instant) : Int :=
  (now.second / secondsPerDay - t.second / secondsPerDay) * nanosPerDay

/-- What lies between two times of day, with leap seconds. -/
def betweenTimes (t now : Instant) : Int :=
  (now.secondOfDay - t.secondOfDay + t.leapBetween now) * nanosPerSecond + (now.nano - t.nano : Int)

/-- The time that has passed, worked out by durations that can be held. -/
def elapsed? (t now : Instant) : Option Int := do
  let dates ← span? (t.betweenDates now)
  let times ← span? (t.betweenTimes now)
  span? (dates + times)

theorem leapBetween_bounds (t now : Instant) : -1 ≤ t.leapBetween now ∧ t.leapBetween now ≤ 1 := by
  rw [leapBetween]
  split
  · decide
  · split <;> decide

/-- What has passed between two instants of the calendar is far below what can be held. -/
theorem elapsed_bounds (t now : Instant) :
    -(longestSpan / 500) ≤ t.elapsed now ∧ t.elapsed now ≤ longestSpan / 500 := by
  have hfirst : firstSecond = -8272465632000 := by decide
  have hlast : lastSecond = 8272402473599 := by decide
  have hlongest : longestSpan / 500 = 18446744073709551614000 := by decide
  have hscale : (nanosPerSecond : Int) = 1000000000 := rfl
  have ht : t.nano < 2000000000 := t.nano_lt
  have hn : now.nano < 2000000000 := now.nano_lt
  have hleap := t.leapBetween_bounds now
  have hbounds := And.intro (And.intro t.lower t.upper) (And.intro now.lower now.upper)
  rw [hfirst, hlast] at hbounds
  rw [hlongest, elapsed, hscale]
  omega

theorem betweenTimes_bounds (t now : Instant) :
    -(longestSpan / 500) ≤ t.betweenTimes now ∧ t.betweenTimes now ≤ longestSpan / 500 := by
  have hlongest : longestSpan / 500 = 18446744073709551614000 := by decide
  have hscale : (nanosPerSecond : Int) = 1000000000 := rfl
  have ht : t.nano < 2000000000 := t.nano_lt
  have hn : now.nano < 2000000000 := now.nano_lt
  have hleap := t.leapBetween_bounds now
  rw [hlongest, betweenTimes, secondOfDay, secondOfDay, secondsPerDay, hscale]
  omega

theorem betweenDates_add_betweenTimes (t now : Instant) :
    t.betweenDates now + t.betweenTimes now = t.elapsed now := by
  have hday : nanosPerDay = 86400000000000 := rfl
  have hscale : (nanosPerSecond : Int) = 1000000000 := rfl
  rw [betweenDates, betweenTimes, elapsed, secondOfDay, secondOfDay, secondsPerDay, hscale, hday]
  omega

theorem elapsed?_eq (t now : Instant) : t.elapsed? now = some (t.elapsed now) := by
  have hsum := t.betweenDates_add_betweenTimes now
  obtain ⟨hlower, hupper⟩ := t.elapsed_bounds now
  obtain ⟨htimes, htimes'⟩ := t.betweenTimes_bounds now
  rw [elapsed?, span?_eq (by omega) (by omega), Option.bind_eq_bind, Option.bind_some,
    span?_eq (by omega) (by omega), Option.bind_some, hsum]
  exact span?_eq (by omega) (by omega)

end Instant

namespace Progress

/-- Time that remains in days and a rest, worked out by durations that can be held. -/
def inDays? (nanos : Int) : Option Progress := do
  let days := (nanos.tdiv nanosPerSecond).tdiv secondsPerDay
  let whole ← span? (days * nanosPerDay)
  let rest ← span? (nanos - whole)
  some (.timeRemaining days rest)

theorem inDays?_eq {nanos : Int} (h : 0 ≤ nanos) (hlong : nanos ≤ longestSpan) :
    inDays? nanos = some (.timeRemaining (nanos / nanosPerDay) (nanos % nanosPerDay)) := by
  have hseconds : 0 ≤ nanos / (nanosPerSecond : Int) := Int.ediv_nonneg h (by decide)
  have hdays : (nanos.tdiv nanosPerSecond).tdiv secondsPerDay = nanos / nanosPerDay := by
    rw [Int.tdiv_eq_ediv_of_nonneg h, Int.tdiv_eq_ediv_of_nonneg hseconds,
      Int.ediv_ediv_of_nonneg (by decide), nanosPerDay, Int.mul_comm]
  have hwhole : 0 ≤ nanos / nanosPerDay * nanosPerDay :=
    Int.mul_nonneg (Int.ediv_nonneg h (by decide)) (by decide)
  have hrest : 0 ≤ nanos % nanosPerDay := Int.emod_nonneg _ (by decide)
  have hsum := Int.ediv_mul_add_emod nanos nanosPerDay
  have hleft : nanos - nanos / nanosPerDay * nanosPerDay = nanos % nanosPerDay := by omega
  simp only [inDays?, hdays]
  rw [span?_eq (by omega) (by omega), Option.bind_eq_bind, Option.bind_some, hleft,
    span?_eq (by omega) (by omega), Option.bind_some]

end Progress

namespace Board

/-- What the session clock shows, worked out by durations that can be held. -/
def progress? (b : Board) (now : Instant) : Option Progress :=
  if !b.initialised then some .indeterminate
  else do
    let elapsed ← b.startedAt.elapsed? now
    let wait ← span? (b.session.waitSeconds.toNat * nanosPerSecond)
    if elapsed < wait then
      let remaining ← span? (wait - elapsed)
      some (.countdown remaining)
    else if 0 < b.session.minutes then
      let length ← span? (b.session.minutes.toNat * nanosPerMinute)
      let whole ← span? (length + wait)
      let left ← span? (whole - elapsed)
      Progress.inDays? (max left 0)
    else if 0 < b.session.laps then
      some (.lapsRemaining
        (b.session.laps.toNat - (b.leader?.elim 0 Driver.totalLaps).toNat))
    else some .indeterminate

/-- **NO DURATION IS TOO LONG** on the way to what the clock shows, on any board at any time. -/
theorem progress?_eq (b : Board) (now : Instant) : b.progress? now = some (b.progress now) := by
  have hlongest : longestSpan / 500 = 18446744073709551614000 := by decide
  have hwait : 0 ≤ (b.session.waitSeconds.toNat * nanosPerSecond : Int) ∧
      (b.session.waitSeconds.toNat * nanosPerSecond : Int) ≤ longestSpan / 500 := by
    have hscale : (nanosPerSecond : Int) = 1000000000 := rfl
    have hsize := b.session.waitSeconds.toNat_lt
    rw [hlongest, hscale]
    omega
  have hruns : 0 ≤ b.session.minutes.toNat * nanosPerMinute ∧
      b.session.minutes.toNat * nanosPerMinute ≤ longestSpan / 500 := by
    have hscale : nanosPerMinute = 60000000000 := rfl
    have hsize := b.session.minutes.toNat_lt
    rw [hlongest, hscale]
    omega
  obtain ⟨hlower, hupper⟩ := b.startedAt.elapsed_bounds now
  cases hready : b.initialised with
  | false => simp only [progress?, progress, hready, Bool.not_false, if_true]
  | true =>
      simp only [progress?, progress, hready, Bool.not_true, Bool.false_eq_true, if_false]
      rw [Instant.elapsed?_eq, Option.bind_eq_bind, Option.bind_some]
      generalize b.startedAt.elapsed now = elapsed at *
      generalize (b.session.waitSeconds.toNat * nanosPerSecond : Int) = wait at *
      generalize b.session.minutes.toNat * nanosPerMinute = length at *
      rw [span?_eq (by omega) (by omega), Option.bind_some]
      split
      · rw [span?_eq (by omega) (by omega), Option.bind_some]
      · split
        · rw [span?_eq (by omega) (by omega), Option.bind_some, span?_eq (by omega) (by omega),
            Option.bind_some, span?_eq (by omega) (by omega), Option.bind_some,
            Progress.inDays?_eq (by omega) (by omega)]
        · split <;> rfl

/-- **THE SESSION CLOCK IS EXACT AND ONLY RUNS DOWN**: once a snapshot has arrived, and leap seconds
apart, the clock counts down just until the session starts, and shows then how long it still runs
in days and a rest, down to nothing, if it runs on time. As time passes no countdown begins
again, and what is left until the end does not become more. On no board and at no time, leap
seconds included, does a duration on the way to this become longer than can be held. -/
theorem progress_runs_down {b : Board} (hready : b.initialised = true)
    (hstart : b.startedAt.isLeap = false) :
    (∀ now : Instant, now.isLeap = false →
      (∀ remaining, b.progress now = .countdown remaining ↔
        now.onClock < b.startsAt ∧ remaining = b.startsAt - now.onClock) ∧
      (b.startsAt ≤ now.onClock → 0 < b.session.minutes →
        ∃ days rest, b.progress now = .timeRemaining days rest ∧ 0 ≤ days ∧ 0 ≤ rest ∧
          rest < nanosPerDay ∧ days * nanosPerDay + rest = max 0 (b.endsAt - now.onClock))) ∧
    (∀ now later : Instant, now.isLeap = false → later.isLeap = false → now ≤ later →
      ((∃ remaining, b.progress later = .countdown remaining) →
        ∃ remaining, b.progress now = .countdown remaining) ∧
      (b.progress later).untilEnd b.runsFor ≤ (b.progress now).untilEnd b.runsFor) ∧
    ∀ (board : Board) (now : Instant), board.progress? now = some (board.progress now) := by
  have hcounts : ∀ now : Instant, now.isLeap = false → ∀ remaining,
      b.progress now = .countdown remaining ↔
        now.onClock < b.startsAt ∧ remaining = b.startsAt - now.onClock :=
    fun now hnow remaining => progress_eq_countdown_iff hready hstart hnow
  refine ⟨fun now hnow => ⟨hcounts now hnow, ?runs⟩,
    fun now later hnow hlater hle => ⟨?once, ?less⟩, progress?_eq⟩
  case runs =>
    intro hstarted hminutes
    refine ⟨max (b.endsAt - now.onClock) 0 / nanosPerDay,
      max (b.endsAt - now.onClock) 0 % nanosPerDay, ?_, ?_, ?_, ?_, ?_⟩
    · rw [progress_eq hready hstart hnow, if_neg (Int.not_lt.2 hstarted), if_pos hminutes]
    · exact Int.ediv_nonneg (Int.le_max_right _ _) (by decide)
    · exact Int.emod_nonneg _ (by decide)
    · exact Int.emod_lt_of_pos _ (by decide)
    · rw [Int.ediv_mul_add_emod, Int.max_comm]
  case once =>
    rintro ⟨remaining, hlast⟩
    have hbefore : now.onClock < b.startsAt :=
      Int.lt_of_le_of_lt (Instant.onClock_le_of_le hnow hle) ((hcounts later hlater _).1 hlast).1
    exact ⟨_, (hcounts now hnow _).2 ⟨hbefore, rfl⟩⟩
  case less =>
    have hclock := Instant.onClock_le_of_le hnow hle
    rw [untilEnd_progress hready hstart hnow, untilEnd_progress hready hstart hlater]
    omega

/-- A session of 2000 minutes waits for one: its clock in the last second of the wait, at the start
and when all is over. -/
theorem progress_runs_down_from_a_day :
    let start : Instant := ⟨63000000000, 0, by decide, by decide, by decide, by decide⟩
    let last : Instant := ⟨63000000059, 0, by decide, by decide, by decide, by decide⟩
    let begun : Instant := ⟨63000000060, 0, by decide, by decide, by decide, by decide⟩
    let past : Instant := ⟨63000200000, 0, by decide, by decide, by decide, by decide⟩
    let b := ofSnapshot { session := { waitSeconds := 60, minutes := 2000 }, startedAt := start }
    b.initialised = true ∧ b.startedAt.isLeap = false ∧
      b.progress last = .countdown nanosPerSecond ∧
      b.progress begun = .timeRemaining 1 (560 * nanosPerMinute) ∧
      (b.progress past).untilEnd b.runsFor ≤ (b.progress begun).untilEnd b.runsFor ∧
      b.progress past = .timeRemaining 0 0 ∧ b.progress? past = some (.timeRemaining 0 0) := by
  intro start last begun past b
  have hready : b.initialised = true := rfl
  have hstart : b.startedAt.isLeap = false := rfl
  obtain ⟨hshown, hless, hheld⟩ := progress_runs_down hready hstart
  have hover : b.progress past = .timeRemaining 0 0 := by decide +kernel
  refine ⟨hready, hstart, ?last, ?begun, ?less, hover, ?held⟩
  case last => exact ((hshown last rfl).1 _).2 (by decide +kernel)
  case begun =>
    obtain ⟨days, rest, hbegun, -, hrest, hday, hsum⟩ :=
      (hshown begun rfl).2 (by decide +kernel) (by decide +kernel)
    have hleft : max 0 (b.endsAt - begun.onClock) = nanosPerDay + 560 * nanosPerMinute := by
      decide +kernel
    have hday' : nanosPerDay = 86400000000000 := rfl
    have hminute : nanosPerMinute = 60000000000 := rfl
    rw [hday'] at hday hsum hleft
    obtain ⟨rfl, rfl⟩ : days = 1 ∧ rest = 560 * nanosPerMinute := by omega
    exact hbegun
  case less => exact (hless begun past rfl rfl (by decide +kernel)).2
  case held => rw [hheld, hover]

end Board

end Pitwall
