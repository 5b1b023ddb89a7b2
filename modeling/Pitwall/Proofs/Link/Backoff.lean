import Mathlib.Algebra.Group.Nat.Defs
import Pitwall.Link.Settings

/-!
# Backoff — delays by doubling

After so many failures in a row the delay is the least one, doubled as often, up to the greatest one
(**`Backoff.take_afterFailures`**), so in a run of attempts the delays tell how many have failed
since the last success: **`Backoff.waits_ofBounds`**.

A timer holds its durations in a word of seconds and a rest of nanoseconds. **`TimedBackoff`** works
the delays out in such durations, and stops where a product does not fit or the bounds are the wrong
way round. Neither ever happens, and the delays are the same:
**`TimedBackoff.Holds.exists_waits?`**. Together these are **`Settings.delays_by_doubling`**.
-/

namespace Pitwall

/-- How an attempt to connect ends. -/
inductive Attempt where
  /-- The next attempt has to wait. -/
  | failed
  /-- The delays start over. -/
  | succeeded

namespace Attempt

/-- For each attempt that fails, how many have failed before it since the last success, where
`before` have failed already. -/
def failures (before : Nat) : List Attempt → List Nat
  | [] => []
  | .failed :: attempts => before :: failures (before + 1) attempts
  | .succeeded :: attempts => failures 0 attempts

end Attempt

open Attempt (failures)

namespace Backoff

/-! ## Runs of attempts -/

/-- The delays that a run of attempts asks for. -/
def waits (b : Backoff) : List Attempt → List Nat
  | [] => []
  | .failed :: attempts => b.take.1 :: b.take.2.waits attempts
  | .succeeded :: attempts => b.reset.waits attempts

/-- What becomes of the delays in a run of attempts. -/
def after (b : Backoff) : List Attempt → Backoff
  | [] => b
  | .failed :: attempts => b.take.2.after attempts
  | .succeeded :: attempts => b.reset.after attempts

/-- The delay after so many failures in a row. -/
def doubled (least greatest failures : Nat) : Nat := min (least * 2 ^ failures) (max least greatest)

/-- The delays as they are after so many failures in a row. -/
def afterFailures (least greatest failures : Nat) : Backoff :=
  ⟨least, max least greatest, doubled least greatest failures⟩

variable (least greatest n : Nat)

theorem least_le_doubled : least ≤ doubled least greatest n :=
  Nat.le_min.2 ⟨Nat.le_mul_of_pos_right least (Nat.two_pow_pos n), Nat.le_max_left least greatest⟩

theorem doubled_le : doubled least greatest n ≤ max least greatest := Nat.min_le_right _ _

theorem doubled_zero : doubled least greatest 0 = least := by
  rw [doubled, Nat.pow_zero, Nat.mul_one, Nat.min_eq_left (Nat.le_max_left least greatest)]

/-- One more failure doubles the delay, as far as the greatest one goes. -/
theorem doubled_succ :
    doubled least greatest (n + 1) = min (2 * doubled least greatest n) (max least greatest) := by
  have htwice : least * 2 ^ (n + 1) = 2 * (least * 2 ^ n) := by
    rw [Nat.pow_succ, ← Nat.mul_assoc, Nat.mul_comm]
  rw [doubled, doubled, htwice]
  omega

/-- More failures do not make the delay shorter. -/
theorem doubled_le_doubled {n m : Nat} (h : n ≤ m) :
    doubled least greatest n ≤ doubled least greatest m := by
  have hpow : least * 2 ^ n ≤ least * 2 ^ m :=
    Nat.mul_le_mul_left least (Nat.pow_le_pow_right (by decide) h)
  rw [doubled, doubled]
  omega

theorem ofBounds_eq : ofBounds least greatest = afterFailures least greatest 0 := by
  rw [ofBounds, afterFailures, doubled_zero, Nat.max_comm]

theorem reset_afterFailures :
    (afterFailures least greatest n).reset = afterFailures least greatest 0 := by
  rw [afterFailures, reset, afterFailures, doubled_zero]

/-- **A FAILURE** takes the delay and doubles the next one. -/
theorem take_afterFailures :
    (afterFailures least greatest n).take =
      (doubled least greatest n, afterFailures least greatest (n + 1)) := by
  have hleast := least_le_doubled least greatest (n + 1)
  rw [doubled_succ] at hleast
  rw [take, afterFailures, afterFailures, doubled_succ, Nat.max_eq_right hleast]

theorem waits_afterFailures (attempts : List Attempt) :
    (afterFailures least greatest n).waits attempts =
      (failures n attempts).map (doubled least greatest) := by
  induction attempts generalizing n with
  | nil => rfl
  | cons a attempts ih =>
      cases a with
      | failed => rw [waits, take_afterFailures, failures, List.map_cons, ih]
      | succeeded => rw [waits, reset_afterFailures, failures, ih]

/-- **THE DELAYS** tell how often an attempt has failed since the last success. -/
theorem waits_ofBounds (attempts : List Attempt) :
    (ofBounds least greatest).waits attempts =
      (failures 0 attempts).map (doubled least greatest) := by
  rw [ofBounds_eq, waits_afterFailures]

/-- Whatever the attempts, all that counts of them is how many have failed in a row. -/
theorem exists_after_ofBounds (attempts : List Attempt) :
    ∃ n, (ofBounds least greatest).after attempts = afterFailures least greatest n := by
  rw [ofBounds_eq]
  generalize 0 = n
  induction attempts generalizing n with
  | nil => exact ⟨n, rfl⟩
  | cons a attempts ih =>
      cases a with
      | failed =>
          rw [after, take_afterFailures]
          exact ih (n + 1)
      | succeeded =>
          rw [after, reset_afterFailures]
          exact ih 0

/-- The delays of failures in a row. -/
theorem delays_afterFailures (count : Nat) :
    (afterFailures least greatest n).delays count =
      (List.range' n count).map (doubled least greatest) := by
  induction count generalizing n with
  | zero => rfl
  | succ count ih => rw [delays, take_afterFailures, List.range'_succ, List.map_cons, ih]

/-- **FAILURES IN A ROW** never make the delay shorter. -/
theorem pairwise_delays_after (attempts : List Attempt) (count : Nat) :
    (((ofBounds least greatest).after attempts).delays count).Pairwise (· ≤ ·) := by
  obtain ⟨n, hn⟩ := exists_after_ofBounds least greatest attempts
  rw [hn, delays_afterFailures, List.pairwise_map]
  exact List.pairwise_le_range'.imp fun h => doubled_le_doubled least greatest h

end Backoff

/-! ## Durations as a timer holds them -/

/-- A number, if a word of 64 bits holds it. -/
def word? (n : Nat) : Option UInt64 := if n < UInt64.size then some (.ofNat n) else none

theorem exists_word? {n : Nat} (h : n < UInt64.size) : ∃ w, word? n = some w ∧ w.toNat = n :=
  ⟨.ofNat n, if_pos h, UInt64.toNat_ofNat_of_lt h⟩

/-- A duration: a word of seconds, and less than a second in nanoseconds. -/
structure Duration where
  seconds : UInt64
  nanos : Nat
  nanos_lt : nanos < 1000000000

namespace Duration

/-- The length of a duration in nanoseconds. -/
def length (d : Duration) : Nat := d.seconds.toNat * 1000000000 + d.nanos

/-- The duration of so many milliseconds. -/
def ofMillis (n : UInt64) : Duration := ⟨n / 1000, n.toNat % 1000 * 1000000, by omega⟩

/-- Whether a duration is not longer than the other one. -/
def le (d e : Duration) : Bool :=
  decide (d.seconds < e.seconds) || d.seconds == e.seconds && decide (d.nanos ≤ e.nanos)

/-- The longer one of two durations. -/
def longer (d e : Duration) : Duration := if d.le e then e else d

/-- So many times the duration, if words hold the products and sums of seconds. -/
def times? (d : Duration) (n : UInt32) : Option Duration := do
  let nanos := d.nanos * n.toNat
  let product ← word? (d.seconds.toNat * n.toNat)
  let seconds ← word? (product.toNat + nanos / 1000000000)
  some ⟨seconds, nanos % 1000000000, Nat.mod_lt _ (by decide)⟩

/-- The duration between two bounds that is next to this one, if the bounds are the right way
round. -/
def clamp? (d least greatest : Duration) : Option Duration :=
  if least.le greatest then
    some (if !least.le d then least else if !d.le greatest then greatest else d)
  else none

variable {d e least greatest : Duration}

theorem le_iff : d.le e = true ↔ d.length ≤ e.length := by
  have hd := d.nanos_lt
  have he := e.nanos_lt
  rw [le, Bool.or_eq_true, Bool.and_eq_true, beq_iff_eq, decide_eq_true_eq, decide_eq_true_eq,
    UInt64.lt_iff_toNat_lt, ← UInt64.toNat_inj, length, length]
  omega

theorem length_ofMillis (n : UInt64) : (ofMillis n).length = n.toNat * 1000000 := by
  have hseconds : (n / 1000).toNat = n.toNat / 1000 := UInt64.toNat_div n 1000
  show (n / 1000).toNat * 1000000000 + n.toNat % 1000 * 1000000 = n.toNat * 1000000
  rw [hseconds]
  omega

theorem length_longer (d e : Duration) : (d.longer e).length = max d.length e.length := by
  rw [longer]
  split
  · next h => exact (Nat.max_eq_right (le_iff.1 h)).symm
  · next h =>
    rw [le_iff] at h
    exact (Nat.max_eq_left (by omega)).symm

/-- **PRODUCTS** whose seconds fit into a word are worked out. -/
theorem exists_times? {n : UInt32} (h : d.length * n.toNat < UInt64.size * 1000000000) :
    ∃ product, d.times? n = some product ∧ product.length = d.length * n.toNat := by
  have hsplit : d.length * n.toNat =
      d.seconds.toNat * n.toNat * 1000000000 + d.nanos * n.toNat := by
    rw [length, Nat.add_mul, Nat.mul_right_comm]
  rw [hsplit] at h
  obtain ⟨product, hproduct, hvalue⟩ := exists_word? (n := d.seconds.toNat * n.toNat) (by omega)
  obtain ⟨seconds, hseconds, hsum⟩ :=
    exists_word? (n := product.toNat + d.nanos * n.toNat / 1000000000) (by omega)
  refine ⟨⟨seconds, d.nanos * n.toNat % 1000000000, Nat.mod_lt _ (by decide)⟩, ?_, ?_⟩
  · simp only [times?, hproduct, hseconds, Option.bind_eq_bind, Option.bind_some]
  · show seconds.toNat * 1000000000 + d.nanos * n.toNat % 1000000000 = d.length * n.toNat
    rw [hsum, hvalue, hsplit]
    omega

/-- **BETWEEN BOUNDS** that are the right way round there is a duration. -/
theorem exists_clamp? (h : least.length ≤ greatest.length) :
    ∃ between, d.clamp? least greatest = some between ∧
      between.length = max least.length (min d.length greatest.length) := by
  rw [clamp?, if_pos (le_iff.2 h)]
  refine ⟨_, rfl, ?_⟩
  have hnot : ∀ d e : Duration, (!d.le e) = true ↔ e.length < d.length := by
    intro d e
    rw [Bool.not_eq_true', ← Bool.not_eq_true, le_iff, Nat.not_le]
  split
  · next hlow =>
    rw [hnot] at hlow
    omega
  · next hlow =>
    rw [hnot] at hlow
    split
    · next hhigh =>
      rw [hnot] at hhigh
      omega
    · next hhigh =>
      rw [hnot] at hhigh
      omega

end Duration

/-! ## Delays as a timer holds them -/

/-- The delays between attempts as durations. -/
structure TimedBackoff where
  least : Duration
  greatest : Duration
  next : Duration

namespace TimedBackoff

/-- Delays between two bounds; a greatest delay below the least one counts as equal to it. -/
def ofBounds (least greatest : Duration) : TimedBackoff :=
  ⟨least, greatest.longer least, least⟩

/-- The delay before the next attempt, and the delays after it, if these can be worked out. -/
def take? (b : TimedBackoff) : Option (Duration × TimedBackoff) := do
  let product ← b.next.times? 2
  let next ← product.clamp? b.least b.greatest
  some (b.next, { b with next })

/-- Goes back to the least delay. -/
def reset (b : TimedBackoff) : TimedBackoff := { b with next := b.least }

/-- The delays that a run of attempts asks for, if all of them can be worked out. -/
def waits? (b : TimedBackoff) : List Attempt → Option (List Duration)
  | [] => some []
  | .failed :: attempts => do
    let (delay, b) ← b.take?
    let delays ← b.waits? attempts
    some (delay :: delays)
  | .succeeded :: attempts => b.reset.waits? attempts

/-- The durations are so many milliseconds long. -/
structure Holds (t : TimedBackoff) (b : Backoff) : Prop where
  least : t.least.length = b.least * 1000000
  greatest : t.greatest.length = b.greatest * 1000000
  next : t.next.length = b.next * 1000000

open Backoff (doubled afterFailures)

variable {t : TimedBackoff} {least greatest n : Nat}

theorem Holds.reset (h : t.Holds (afterFailures least greatest n)) :
    t.reset.Holds (afterFailures least greatest 0) := by
  rw [← Backoff.reset_afterFailures least greatest n]
  exact ⟨h.least, h.greatest, h.least⟩

/-- **A FAILURE** can be worked out, since twice a delay that fits into a word of milliseconds is
far from a word of seconds. -/
theorem Holds.exists_take? (hword : max least greatest < UInt64.size)
    (h : t.Holds (afterFailures least greatest n)) :
    ∃ t', t.take? = some (t.next, t') ∧ t'.Holds (afterFailures least greatest (n + 1)) := by
  have hleast : t.least.length = least * 1000000 := h.least
  have hgreatest : t.greatest.length = max least greatest * 1000000 := h.greatest
  have hnext : t.next.length = doubled least greatest n * 1000000 := h.next
  have hle := Backoff.doubled_le least greatest n
  have htwo : (2 : UInt32).toNat = 2 := rfl
  obtain ⟨product, hproduct, hlength⟩ :=
    Duration.exists_times? (d := t.next) (n := 2) (by rw [hnext, htwo]; omega)
  have hbounds : t.least.length ≤ t.greatest.length := by
    rw [hleast, hgreatest]
    omega
  obtain ⟨next, hclamp, hbetween⟩ := Duration.exists_clamp? (d := product) hbounds
  refine ⟨{ t with next }, ?_, hleast, hgreatest, ?_⟩
  · rw [take?, hproduct, Option.bind_eq_bind, Option.bind_some, hclamp, Option.bind_some]
  · have hlow := Backoff.least_le_doubled least greatest (n + 1)
    rw [Backoff.doubled_succ] at hlow
    have htwice : doubled least greatest n * 1000000 * 2 =
        2 * doubled least greatest n * 1000000 := by
      rw [Nat.mul_comm, Nat.mul_assoc]
    show next.length = doubled least greatest (n + 1) * 1000000
    rw [hbetween, hlength, hleast, hgreatest, hnext, htwo, htwice, Nat.mul_min_mul_right,
      Nat.mul_max_mul_right, Nat.max_eq_right hlow, Backoff.doubled_succ]

/-- **NO DURATION IS TOO LONG** in any run of attempts, and the delays are as long as they should
be. -/
theorem Holds.exists_waits? (hword : max least greatest < UInt64.size)
    (h : t.Holds (afterFailures least greatest n)) (attempts : List Attempt) :
    ∃ delays, t.waits? attempts = some delays ∧
      delays.map Duration.length =
        ((afterFailures least greatest n).waits attempts).map (· * 1000000) := by
  induction attempts generalizing t n with
  | nil => exact ⟨[], rfl, rfl⟩
  | cons a attempts ih =>
      cases a with
      | failed =>
          obtain ⟨t', htake, ht'⟩ := h.exists_take? hword
          obtain ⟨delays, hdelays, hlengths⟩ := ih ht'
          refine ⟨t.next :: delays, ?_, ?_⟩
          · simp only [waits?, htake, hdelays, Option.bind_eq_bind, Option.bind_some]
          · rw [Backoff.waits, Backoff.take_afterFailures, List.map_cons, List.map_cons, hlengths]
            exact congrArg (· :: _) h.next
      | succeeded =>
          rw [waits?, Backoff.waits, Backoff.reset_afterFailures]
          exact ih h.reset

end TimedBackoff

namespace Settings

/-- The delays between attempts to connect, as durations. -/
def timedBackoff (s : Settings) : TimedBackoff :=
  .ofBounds (.ofMillis s.leastDelayMillis) (.ofMillis s.greatestDelayMillis)

theorem holds_timedBackoff (s : Settings) : s.timedBackoff.Holds s.backoff where
  least := Duration.length_ofMillis s.leastDelayMillis
  greatest := by
    show ((Duration.ofMillis s.greatestDelayMillis).longer (.ofMillis s.leastDelayMillis)).length =
      max s.greatestDelayMillis.toNat s.leastDelayMillis.toNat * 1000000
    rw [Duration.length_longer, Duration.length_ofMillis, Duration.length_ofMillis]
    omega
  next := Duration.length_ofMillis s.leastDelayMillis

/-- **DELAYS BY DOUBLING**: whatever the bounds that are set, and however the attempts to connect
end, each attempt that fails waits for the least delay, doubled for every failure since the last
success and cut to the greatest delay, or to the least one where that is greater. Failures in a row
never make the delay shorter. Worked out in durations as a timer holds them, the delays are the same
to the nanosecond, and no product of a duration is too long on the way. -/
theorem delays_by_doubling (s : Settings) (attempts : List Attempt) :
    let least := s.leastDelayMillis.toNat
    let greatest := s.greatestDelayMillis.toNat
    s.backoff.waits attempts =
        (failures 0 attempts).map (fun k => min (least * 2 ^ k) (max least greatest)) ∧
      (∀ count, ((s.backoff.after attempts).delays count).Pairwise (· ≤ ·)) ∧
      ∃ delays, s.timedBackoff.waits? attempts = some delays ∧
        delays.map Duration.length = (s.backoff.waits attempts).map (· * 1000000) := by
  intro least greatest
  refine ⟨Backoff.waits_ofBounds least greatest attempts,
    Backoff.pairwise_delays_after least greatest attempts, ?_⟩
  have hword : max least greatest < UInt64.size :=
    Nat.max_lt.2 ⟨s.leastDelayMillis.toNat_lt, s.greatestDelayMillis.toNat_lt⟩
  have hstart : s.backoff = Backoff.afterFailures least greatest 0 :=
    Backoff.ofBounds_eq least greatest
  have hholds := s.holds_timedBackoff
  rw [hstart] at hholds ⊢
  exact hholds.exists_waits? hword attempts

/-- Where the greatest delay is below the least one, all delays are the least one. -/
example : (Backoff.ofBounds 300 100).waits [.failed, .failed, .succeeded, .failed] =
    [300, 300, 300] := by decide

end Settings

end Pitwall
