import Pitwall.Driver.Car
import Pitwall.Text.Words

/-!
# Laps — what a driver achieved in one car

Lap and split times are nanoseconds. A `LapSheet` is kept per driver and model of car; its best
lap is 0 until a valid lap has been set.
-/

namespace Pitwall

structure Split where
  /-- The number of the split, from 0. -/
  index : UInt8 := 0
  /-- The time in nanoseconds. -/
  time : Int64 := 0
  /-- How often the track was cut. -/
  cuts : UInt8 := 0
  /-- Whether it is the driver's best. -/
  isDriversBest : Bool := false
  /-- Whether it is the best of all. -/
  isBest : Bool := false
  deriving DecidableEq, BEq

namespace Split

instance : Inhabited Split := ⟨{}⟩

/-- Whether the track was cut. -/
def isCut (s : Split) : Bool := s.cuts != 0

def record : Record Split where
  start := {}
  fields :=
    [.of "SplitIndex" .uint8 (·.index) (fun s v => { s with index := v }),
     .of "SplitTime" .int64 (·.time) (fun s v => { s with time := v }),
     .of "Cuts" .uint8 (·.cuts) (fun s v => { s with cuts := v }),
     .of "IsDriversBest" .bool (·.isDriversBest) (fun s v => { s with isDriversBest := v }),
     .of "IsBest" .bool (·.isBest) (fun s v => { s with isBest := v })]

/-- Splits by their number, on the wire; `null` stands for none. -/
def tableCodec : Codec (Table UInt8 Split) := .nullAs .empty (.table .uint8 record.codec)

end Split

/-- What a driver achieved in one car. -/
structure LapSheet where
  /-- The highest speed of the lap under way, in km/h. -/
  topSpeed : Binary64 := default
  /-- The highest speed of the best lap, in km/h. -/
  bestLapTopSpeed : Binary64 := default
  bestLapTyres : String := ""
  /-- The best lap in nanoseconds; 0 when none has been set. -/
  bestLap : Int64 := 0
  laps : UInt32 := 0
  /-- The last lap in nanoseconds. -/
  lastLap : Int64 := 0
  /-- When the last lap was completed. -/
  lastLapAt : Instant := .zero
  /-- The sum of all laps in nanoseconds. -/
  totalTime : Int64 := 0
  carName : String := ""
  currentSplits : Table UInt8 Split := .empty
  bestSplits : Table UInt8 Split := .empty
  deriving DecidableEq, BEq

namespace LapSheet

instance : Inhabited LapSheet := ⟨{}⟩

/-- Whether a valid lap has been set. -/
def hasValidLap (s : LapSheet) : Bool := decide (0 < s.bestLap)

/-- The empty sheet of a car seen for the first time, under its name for display or else a
readable form of its model. -/
def ofCar (car : CarInfo) : LapSheet :=
  { carName := if car.carName.isEmpty then Text.readableName car.model else car.carName }

def record : Record LapSheet where
  start := {}
  fields :=
    [.of "TopSpeedThisLap" .double (·.topSpeed) (fun s v => { s with topSpeed := v }),
     .of "TopSpeedBestLap" .double (·.bestLapTopSpeed)
       (fun s v => { s with bestLapTopSpeed := v }),
     .of "TyreBestLap" .string (·.bestLapTyres) (fun s v => { s with bestLapTyres := v }),
     .of "BestLap" .int64 (·.bestLap) (fun s v => { s with bestLap := v }),
     .of "NumLaps" .uint32 (·.laps) (fun s v => { s with laps := v }),
     .of "LastLap" .int64 (·.lastLap) (fun s v => { s with lastLap := v }),
     .of "LastLapCompletedTime" .instant (·.lastLapAt) (fun s v => { s with lastLapAt := v }),
     .of "TotalLapTime" .int64 (·.totalTime) (fun s v => { s with totalTime := v }),
     .of "CarName" .string (·.carName) (fun s v => { s with carName := v }),
     .of "CurrentLapSplits" Split.tableCodec (·.currentSplits)
       (fun s v => { s with currentSplits := v }),
     .of "BestLapSplits" Split.tableCodec (·.bestSplits)
       (fun s v => { s with bestSplits := v })]

end LapSheet

end Pitwall
