import Pitwall.Display.LapTime
import Pitwall.Driver.Laps

/-!
# Placings — lines of the standings

What the standings show of a driver: names, times and speeds as texts, and the splits of the
lap under way with what sets them apart.
-/

namespace Pitwall

/-- How a split stands out. -/
inductive SplitRating where
  | cut
  | overallBest
  | driversBest
  | normal
  deriving DecidableEq

/-- A split as shown. -/
structure ShownSplit where
  /-- The number of the split, from 1. -/
  number : Nat
  time : String
  status : SplitRating
  deriving DecidableEq

namespace Split

/-- How a split stands out; a cut one has no other distinction. -/
def rating (s : Split) : SplitRating :=
  if s.isCut then .cut
  else if s.isBest then .overallBest
  else if s.isDriversBest then .driversBest
  else .normal

/-- A split as shown. -/
def shown (s : Split) : ShownSplit := ⟨s.index.toNat + 1, lapTimeText s.time.toInt, s.rating⟩

end Split

/-- The line of a driver in the standings. -/
structure Placing where
  /-- The place in the order shown, from 1. -/
  rank : Nat
  serverPosition : Option Int32
  guid : Guid
  driverName : String
  carName : String
  tyres : String
  currentLap : String
  splits : List ShownSplit
  /-- The last lap. -/
  lastLap : String
  bestLap : String
  gap : String
  laps : UInt32
  totalLaps : UInt32
  topSpeed : String
  /-- Whether the car is in the pits. -/
  inPits : Bool
  /-- Whether the driver is shown a blue flag. -/
  blueFlag : Bool
  deriving DecidableEq

end Pitwall
