import Pitwall.Event.Tag
import Pitwall.Feed.Scrollback
import Pitwall.Session.Snapshot

/-!
# Events — what race control reports

The messages of race control that say something about session and drivers, each with its
payload. Cars are named by their place on the server; who sits in them is for the listener to
know.
-/

namespace Pitwall

structure Telemetry where
  carId : CarId := 0
  position : Coords := {}
  /-- The velocity in m/s. -/
  velocity : Coords := {}
  /-- The gear: 0 is reverse, 1 is neutral. -/
  gear : UInt8 := 0
  /-- Revolutions of the engine per minute. -/
  rpm : UInt16 := 0
  /-- How far around the lap the car is. -/
  spline : Binary32 := default
  /-- The angle of the steering wheel. -/
  steerAngle : UInt8 := 0
  /-- Whether a blue flag is shown, if that is known. -/
  blueFlag : Option Bool := none
  deriving DecidableEq, BEq

namespace Telemetry

instance : Inhabited Telemetry := ⟨{}⟩

/-- The speed over ground in whole km/h; the height does not count. -/
def speed (t : Telemetry) : Binary64 :=
  let x : Binary64 := t.velocity.x.convert
  let z : Binary64 := t.velocity.z.convert
  ((x * x + z * z).sqrt * .ofFraction 36 10).floor

def record : Record Telemetry where
  start := {}
  fields :=
    [.of "CarID" .uint32 (·.carId) (fun t v => { t with carId := v }),
     .of "Pos" Coords.record.codec (·.position) (fun t v => { t with position := v }),
     .of "Velocity" Coords.record.codec (·.velocity) (fun t v => { t with velocity := v }),
     .of "Gear" .uint8 (·.gear) (fun t v => { t with gear := v }),
     .of "EngineRPM" .uint16 (·.rpm) (fun t v => { t with rpm := v }),
     .of "NormalisedSplinePos" .single (·.spline) (fun t v => { t with spline := v }),
     .of "SteerAngle" .uint8 (·.steerAngle) (fun t v => { t with steerAngle := v }),
     .of "BlueFlag" (.option .bool) (·.blueFlag) (fun t v => { t with blueFlag := v })]

end Telemetry

/-- A collision as it is reported. -/
structure CollisionReport where
  /-- What was hit; the tag of the message says so. -/
  impact : Impact := .car
  carId : CarId := 0
  /-- The other car, if one was hit. -/
  otherCarId : Option CarId := none
  /-- The speed of the impact in km/h. -/
  speed : Binary32 := default
  position : Coords := {}
  relativePosition : Coords := {}
  damage : Damage := {}
  deriving DecidableEq, BEq

namespace CollisionReport

instance : Inhabited CollisionReport := ⟨{}⟩

def record : Record CollisionReport where
  start := {}
  fields :=
    [.of "CarID" .uint32 (·.carId) (fun c v => { c with carId := v }),
     .of "OtherCarID" (.option .uint32) (·.otherCarId) (fun c v => { c with otherCarId := v }),
     .of "ImpactSpeed" .single (·.speed) (fun c v => { c with speed := v }),
     .of "WorldPos" Coords.record.codec (·.position) (fun c v => { c with position := v }),
     .of "RelPos" Coords.record.codec (·.relativePosition)
       (fun c v => { c with relativePosition := v }),
     .of "DamageZones" Damage.codec (·.damage) (fun c v => { c with damage := v })]

end CollisionReport

/-- A line of the leaderboard that comes with a completed lap. -/
structure LeaderboardLine where
  carId : CarId := 0
  /-- The lap time in milliseconds. -/
  millis : UInt32 := 0
  laps : UInt16 := 0
  /-- Whether the car has finished. -/
  completed : UInt8 := 0
  deriving DecidableEq

namespace LeaderboardLine

instance : Inhabited LeaderboardLine := ⟨{}⟩

def record : Record LeaderboardLine where
  start := {}
  fields :=
    [.of "CarID" .uint32 (·.carId) (fun l v => { l with carId := v }),
     .of "LapTime" .uint32 (·.millis) (fun l v => { l with millis := v }),
     .of "Laps" .uint16 (·.laps) (fun l v => { l with laps := v }),
     .of "Completed" .uint8 (·.completed) (fun l v => { l with completed := v })]

end LeaderboardLine

/-- A completed lap. -/
structure LapReport where
  carId : CarId := 0
  /-- The lap time in milliseconds. -/
  millis : UInt32 := 0
  /-- How often the track was cut. -/
  cuts : UInt8 := 0
  carsCount : UInt8 := 0
  /-- The tyre compound; empty when it is not told. -/
  tyres : String := ""
  leaderboard : List LeaderboardLine := []
  deriving DecidableEq

namespace LapReport

instance : Inhabited LapReport := ⟨{}⟩

def record : Record LapReport where
  start := {}
  fields :=
    [.of "CarID" .uint32 (·.carId) (fun l v => { l with carId := v }),
     .of "LapTime" .uint32 (·.millis) (fun l v => { l with millis := v }),
     .of "Cuts" .uint8 (·.cuts) (fun l v => { l with cuts := v }),
     .of "CarsCount" .uint8 (·.carsCount) (fun l v => { l with carsCount := v }),
     .of "Tyres" .string (·.tyres) (fun l v => { l with tyres := v }),
     .of "Cars" (.nullAs [] (.list LeaderboardLine.record.codec)) (·.leaderboard)
       (fun l v => { l with leaderboard := v })]

end LapReport

/-- A completed split. -/
structure SplitReport where
  carId : CarId := 0
  /-- The number of the split, from 0. -/
  index : UInt8 := 0
  /-- The time in milliseconds. -/
  millis : UInt32 := 0
  /-- How often the track was cut. -/
  cuts : UInt8 := 0
  deriving DecidableEq

namespace SplitReport

instance : Inhabited SplitReport := ⟨{}⟩

def record : Record SplitReport where
  start := {}
  fields :=
    [.of "CarID" .uint32 (·.carId) (fun s v => { s with carId := v }),
     .of "Index" .uint8 (·.index) (fun s v => { s with index := v }),
     .of "Time" .uint32 (·.millis) (fun s v => { s with millis := v }),
     .of "Cuts" .uint8 (·.cuts) (fun s v => { s with cuts := v })]

end SplitReport

/-- What race control reports. -/
inductive Event where
  | snapshot (s : Snapshot)
  | newSession (s : SessionInfo)
  | sessionInfo (s : SessionInfo)
  /-- The session is over; its results are in a file. -/
  | endSession (resultsFile : String)
  | newConnection (car : CarInfo)
  | connectionClosed (car : CarInfo)
  | clientLoaded (carId : CarId)
  | carUpdate (t : Telemetry)
  | collision (c : CollisionReport)
  | lapCompleted (l : LapReport)
  | splitCompleted (s : SplitReport)
  | tyresChanged (car : CarInfo)
  | chat (m : ChatMessage)
  | serverError (text : String)
  /-- A message of a known kind that says nothing here. -/
  | ignored (tag : Tag)

namespace Event

instance : Inhabited Event := ⟨.ignored default⟩

/-- The kind of message that an event comes from. -/
def tag : Event → Tag
  | .snapshot _ => .raceControl
  | .newSession _ => .newSession
  | .sessionInfo _ => .sessionInfo
  | .endSession _ => .endSession
  | .newConnection _ => .newConnection
  | .connectionClosed _ => .connectionClosed
  | .clientLoaded _ => .clientLoaded
  | .carUpdate _ => .carUpdate
  | .collision c =>
    match c.impact with
    | .car => .collisionWithCar
    | .environment => .collisionWithEnvironment
  | .lapCompleted _ => .lapCompleted
  | .splitCompleted _ => .splitCompleted
  | .tyresChanged _ => .tyresChanged
  | .chat _ => .chat
  | .serverError _ => .error
  | .ignored tag => tag

end Event

end Pitwall
