import Pitwall.Engine.Apply
import Pitwall.Link.Recording
import Pitwall.Link.Settings

/-!
# Pacing — a recording at its own speed

While a source is read, the periodic jobs run: once at the start and then after every period.
A recording that is paced lets as much time pass before a frame as had passed since the frame
before it; a frame that was stamped earlier than the one before it follows at once. Whatever is
due by then runs while the source waits, so before the frame. A recording that is not paced
never waits, and no job gets its turn.

Times are counted in nanoseconds from the start of the source. **`Pacing.arrivals`** puts frames
and jobs into one sequence.
-/

namespace Pitwall

/-- What a client meets at some time while it reads a source. -/
inductive Arrival where
  | frame (time : Nat) (f : Frame)
  | tick (time : Nat) (t : Tick)

/-- When the client meets it. -/
def Arrival.time : Arrival → Nat
  | .frame time _ => time
  | .tick time _ => time

namespace Pacing

/-- The periodic jobs, in the order in which they run when they are due at the same time. -/
def jobs : List Tick := [.progress, .standings, .feeds]

/-- The times of a job after the one up to which all have run, and up to a given one. -/
def dueTimes (period : Nat) (ran : Option Nat) (upTo : Nat) : List Nat :=
  let first := ran.elim 0 (fun t => t / period + 1)
  (List.range' first (upTo / period + 1 - first)).map (fun k => k * period)

/-- The jobs that are due up to a time, earliest first. -/
def dueJobs (period : Tick → Nat) (ran : Option Nat) (upTo : Nat) : List Arrival :=
  let due := jobs.flatMap (fun job =>
    (dueTimes (period job) ran upTo).map (fun time => Arrival.tick time job))
  due.mergeSort (fun a b => a.time ≤ b.time)

/-- The arrivals of the frames behind a first one, which was stamped `last` and came in at the
time `clock`; the jobs have run up to `ran`. -/
def arrivalsAfter (period : Tick → Nat) (last : Instant) (clock : Nat) (ran : Option Nat) :
    List Frame → List Arrival
  | [] => []
  | f :: fs =>
    let gap := last.elapsed f.receivedAt
    if gap < 0 then .frame clock f :: arrivalsAfter period f.receivedAt clock ran fs
    else
      let clock := clock + gap.toNat
      dueJobs period ran clock ++
        .frame clock f :: arrivalsAfter period f.receivedAt clock (some clock) fs

/-- Frames and jobs while a paced recording is read, given the periods of the jobs. -/
def arrivals (period : Tick → Nat) : List Frame → List Arrival
  | [] => []
  | f :: fs => .frame 0 f :: arrivalsAfter period f.receivedAt 0 none fs

/-- The frames of a recording that is read at once. -/
def atOnce (frames : List Frame) : List Arrival := frames.map (.frame 0)

/-- What a client with the given settings meets while it reads a recording, paced or not. -/
def source (settings : Settings) (paced : Bool) (frames : List Frame) : List Arrival :=
  if paced then arrivals settings.periodNanos frames else atOnce frames

end Pacing

end Pitwall
