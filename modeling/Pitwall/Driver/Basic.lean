import Pitwall.Driver.Collision
import Pitwall.Driver.Laps

/-!
# Drivers

A `Driver` is the record of one driver in one car: the car, the standing, the last telemetry,
the collisions, and a lap sheet for every model of car driven so far. The sheet of the car that
is driven now is the *active* one.
-/

namespace Pitwall

/-- The record of a driver in a car. -/
structure Driver where
  car : CarInfo := {}
  totalLaps : UInt32 := 0
  connectedAt : Instant := .zero
  /-- When the driver finished loading; the zero time before that. -/
  loadedAt : Instant := .zero
  /-- The rank given by the server, from 1; 0 and 255 mean unranked. -/
  position : Int32 := 0
  /-- The gap to the driver ahead, as the server writes it. -/
  gap : String := ""
  /-- When the driver was last seen. -/
  lastSeen : Instant := .zero
  /-- Where the car was last seen. -/
  lastPosition : Coords := {}
  /-- Whether the car is in the pits. -/
  inPits : Bool := false
  /-- How far around the lap the car is. -/
  spline : Binary32 := default
  /-- The angle of the steering wheel. -/
  steerAngle : UInt8 := 0
  /-- Status bits of the server. -/
  status : UInt32 := 0
  /-- Whether the driver is shown a blue flag. -/
  blueFlag : Bool := false
  /-- The collisions, oldest first. -/
  collisions : List Collision := []
  /-- The lap sheets by model of car. -/
  sheets : Table String LapSheet := .empty
  deriving DecidableEq, BEq

namespace Driver

instance : Inhabited Driver := ⟨{}⟩

def guid (d : Driver) : Guid := d.car.guid

def model (d : Driver) : String := d.car.model

/-- The slot that the record belongs to. -/
def slot (d : Driver) : Slot := ⟨d.guid, d.model⟩

/-- The record of a driver who connects for the first time. -/
def ofCar (car : CarInfo) (now : Instant) : Driver :=
  { car, connectedAt := now, lastSeen := now
    sheets := Table.empty.insert car.model (.ofCar car) }

/-- Whether the driver has finished loading. -/
def isLoaded (d : Driver) : Bool := !d.loadedAt.isNever

/-- Whether the server has given the driver a rank. -/
def isRanked (d : Driver) : Bool := decide (0 < d.position) && d.position != 255

/-- The active lap sheet. -/
def sheet? (d : Driver) : Option LapSheet := d.sheets.get? d.model

/-- The active lap sheet, or an empty one where there is none yet. -/
def sheet (d : Driver) : LapSheet := d.sheet?.getD (.ofCar d.car)

/-- Sets the active lap sheet. -/
def setSheet (d : Driver) (s : LapSheet) : Driver :=
  { d with sheets := d.sheets.insert d.model s }

/-- Adds an empty lap sheet for a car where the driver has none for its model. -/
def addSheet (d : Driver) (car : CarInfo) : Driver :=
  match d.sheets.get? car.model with
  | some _ => d
  | none => { d with sheets := d.sheets.insert car.model (.ofCar car) }

/-- The record with another model made the active car, if the driver has driven it. -/
def variant? (d : Driver) (model : String) : Option Driver :=
  (d.sheets.get? model).map (fun s =>
    { d with car := { d.car with model, carName := s.carName } })

/-- The variants of the record for the given models. -/
def variants (d : Driver) (models : List String) : List Driver := models.filterMap d.variant?

def record : Record Driver where
  start := {}
  fields :=
    [.of "CarInfo" CarInfo.record.codec (·.car) (fun d v => { d with car := v }),
     .of "TotalNumLaps" .uint32 (·.totalLaps) (fun d v => { d with totalLaps := v }),
     .of "ConnectedTime" .instant (·.connectedAt) (fun d v => { d with connectedAt := v }),
     .of "LoadedTime" .instant (·.loadedAt) (fun d v => { d with loadedAt := v }),
     .of "Position" .int32 (·.position) (fun d v => { d with position := v }),
     .of "Split" .string (·.gap) (fun d v => { d with gap := v }),
     .of "LastSeen" .instant (·.lastSeen) (fun d v => { d with lastSeen := v }),
     .of "LastPos" Coords.record.codec (·.lastPosition)
       (fun d v => { d with lastPosition := v }),
     .of "IsInPits" .bool (·.inPits) (fun d v => { d with inPits := v }),
     .of "NormalisedSplinePos" .single (·.spline) (fun d v => { d with spline := v }),
     .of "SteerAngle" .uint8 (·.steerAngle) (fun d v => { d with steerAngle := v }),
     .of "StatusBytes" .uint32 (·.status) (fun d v => { d with status := v }),
     .of "BlueFlag" .bool (·.blueFlag) (fun d v => { d with blueFlag := v }),
     .of "Collisions" (.nullAs [] (.list Collision.record.codec)) (·.collisions)
       (fun d v => { d with collisions := v }),
     .of "Cars" (.nullAs .empty (.table .string LapSheet.record.codec)) (·.sheets)
       (fun d v => { d with sheets := v })]

end Driver

end Pitwall
