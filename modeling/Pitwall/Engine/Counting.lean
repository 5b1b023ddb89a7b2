import Pitwall.Engine.Apply

/-!
# Counting — the sums that an event takes

Laps, numbers of collisions, lap times and gears are words of a fixed width, and arithmetic on words
goes round at the end of its range. **`Engine.figures`** lists what an event works out as numbers,
which do not. An event **overflows** (`Engine.overflows`) if one of them does not fit its word:
where arithmetic is checked, merging stops there, and where it is not, it goes on with what is left
of the number.
-/

namespace Pitwall

/-- A number that an event works out, with the kind of word it is kept in. -/
inductive Figure where
  /-- Laps and the numbers of collisions: 32 bits. -/
  | count (n : Int)
  /-- Nanoseconds: 64 bits with a sign. -/
  | nanos (n : Int)
  /-- Gears as displayed: 32 bits with a sign. -/
  | gear (n : Int)
  deriving DecidableEq

namespace Figure

/-- Whether the number fits its word. -/
def fits : Figure → Bool
  | .count n => decide (0 ≤ n ∧ n < UInt32.size)
  | .nanos n => decide (Int64.minValue.toInt ≤ n ∧ n ≤ Int64.maxValue.toInt)
  | .gear n => decide (Int32.minValue.toInt ≤ n ∧ n ≤ Int32.maxValue.toInt)

/-- A time in milliseconds as nanoseconds. -/
def ofMillis (millis : UInt32) : Figure := .nanos (millis.toNat * 1000000)

end Figure

namespace Driver

/-- The time of a lap, the driver's laps, and the laps and the time driven in the car. -/
def lapFigures (d : Driver) (l : LapReport) : List Figure :=
  [.ofMillis l.millis,
   .count (d.totalLaps.toNat + 1),
   .count (d.sheet.laps.toNat + 1),
   .nanos (d.sheet.totalTime.toInt + l.millis.toNat * 1000000)]

/-- The number of the next collision. -/
def collisionFigure (d : Driver) : Figure :=
  match (d.collisions.map Collision.id).max? with
  | none => .count 0
  | some id => .count (id.toNat + 1)

end Driver

namespace Engine

/-- The numbers that merging an event works out, in this order. Of an event that is about a car they
are those of the connected driver in it, but the time of a split is worked out before the driver is
looked up. -/
def figures (e : Engine) : Event → List Figure
  | .carUpdate t => (e.board.atCar? t.carId).elim [] (fun _ => [.gear (t.gear.toNat - 1)])
  | .collision c => (e.board.atCar? c.carId).elim [] (fun p => [p.2.collisionFigure])
  | .lapCompleted l => (e.board.atCar? l.carId).elim [] (fun p => p.2.lapFigures l)
  | .splitCompleted s => [.ofMillis s.millis]
  | _ => []

/-- Whether a number that merging an event works out does not fit its word. -/
def overflows (e : Engine) (event : Event) : Bool := (e.figures event).any (fun f => !f.fits)

end Engine

end Pitwall
