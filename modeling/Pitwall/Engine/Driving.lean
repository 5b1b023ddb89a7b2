import Pitwall.Engine.Basic
import Pitwall.Event.Basic

/-!
# Driving — what happens to a car on the track

Loading, telemetry, collisions, laps, splits and tyres. All of these name a car, and one that
no connected driver occupies changes nothing.
-/

namespace Pitwall

namespace Driver

/-- The driver finished loading; the first time counts. -/
def load (d : Driver) (now : Instant) : Driver :=
  if d.isLoaded then d else { d with loadedAt := now }

/-- The record with new telemetry. -/
def drive (d : Driver) (t : Telemetry) (now : Instant) : Driver :=
  { d with
    spline := t.spline
    lastPosition := t.position
    steerAngle := t.steerAngle
    lastSeen := now
    blueFlag := t.blueFlag.getD d.blueFlag }.setSheet
      { d.sheet with topSpeed := d.sheet.topSpeed.max t.speed }

/-- Collisions that are kept of a driver. -/
def collisionHistory : Nat := 20

/-- The number of the next collision: one more than the greatest that is kept. -/
def nextCollisionId (d : Driver) : UInt32 :=
  match (d.collisions.map Collision.id).max? with
  | none => 0
  | some id => id + 1

/-- The record with one more collision; the oldest ones give way. -/
def collide (d : Driver) (c : Collision) : Driver :=
  let all := d.collisions ++ [c]
  { d with collisions := all.drop (all.length - collisionHistory) }

/-- A time in milliseconds as nanoseconds. -/
def nanosOfMillis (millis : UInt32) : Int64 := Int64.ofInt (millis.toNat * 1000000)

end Driver

namespace LapSheet

/-- Whether a lap is better than the best one so far. -/
def improvedBy (s : LapSheet) (time : Int64) (cuts : UInt8) : Bool :=
  cuts == 0 && decide (0 < time) && (!s.hasValidLap || decide (time < s.bestLap))

/-- The sheet after a lap. The splits and the top speed of the lap become those of the best lap
if it is one, and are cleared for the next lap. -/
def completeLap (s : LapSheet) (time : Int64) (cuts : UInt8) (tyres : String) (now : Instant) :
    LapSheet :=
  let s :=
    { s with
      laps := s.laps + 1
      lastLap := time
      totalTime := s.totalTime + time
      lastLapAt := now }
  let s :=
    if s.improvedBy time cuts then
      { s with
        bestLap := time
        bestLapTyres := tyres
        bestLapTopSpeed := s.topSpeed
        bestSplits := s.currentSplits }
    else s
  { s with topSpeed := .zero false, currentSplits := .empty }

end LapSheet

namespace Driver

/-- The record after a lap. Tyres that are not told stay the same. -/
def completeLap (d : Driver) (l : LapReport) (now : Instant) : Driver :=
  let tyres := if l.tyres.isEmpty then d.car.tyres else l.tyres
  let d := { d with totalLaps := d.totalLaps + 1, car := { d.car with tyres } }
  d.setSheet (d.sheet.completeLap (nanosOfMillis l.millis) l.cuts tyres now)

/-- The record with at least so many laps. -/
def raiseLaps (d : Driver) (laps : UInt16) : Driver :=
  { d with totalLaps := max d.totalLaps laps.toUInt32 }

end Driver

namespace Board

/-- The connected driver who occupies a place, with the key of the record. -/
def atCar? (b : Board) (car : CarId) : Option (Guid × Driver) := do
  let guid ← b.cars.guid? car
  return (guid, ← b.connected.get? guid)

/-- Changes the marker of a driver; a driver without one gets it first. -/
def updateMarker (b : Board) (d : Driver) (f : Marker → Marker) : Board :=
  { b with
    markers := b.markers.insert d.guid (f ((b.markers.get? d.guid).getD (.ofCar d.car))) }

/-- Raises the laps of a car to those of a line of the leaderboard. -/
def raiseLaps (b : Board) (line : LeaderboardLine) : Board :=
  match b.atCar? line.carId with
  | none => b
  | some (key, d) => b.setDriver key (d.raiseLaps line.laps)

/-- The best uncut time for a split in the best laps of all connected drivers in all cars. -/
def bestSplit? (b : Board) (index : UInt8) : Option Int64 :=
  let splits := b.connected.values.flatMap (fun d =>
    d.sheets.values.filterMap (fun s => s.bestSplits.get? index))
  ((splits.filter (fun s => !s.isCut && decide (0 < s.time))).map Split.time).min?

end Board

/-- Whether a time beats another one, if there is one. -/
def beats (time : Int64) (other : Option Int64) : Bool := other.all (fun t => decide (time < t))

namespace Driver

/-- The driver's own time to beat for a split: the uncut one of the best lap. -/
def ownSplit? (d : Driver) (index : UInt8) : Option Int64 :=
  ((d.sheet.bestSplits.get? index).filter (fun s => !s.isCut)).map Split.time

/-- A split with its flags, given the best time of all. -/
def judgeSplit (d : Driver) (s : SplitReport) (best : Option Int64) : Split :=
  let time := nanosOfMillis s.millis
  let valid := s.cuts == 0 && decide (0 < time)
  { index := s.index
    time
    cuts := s.cuts
    isDriversBest := valid && beats time (d.ownSplit? s.index)
    isBest := valid && beats time best }

/-- The record with a split of the lap under way. -/
def addSplit (d : Driver) (s : Split) : Driver :=
  d.setSheet { d.sheet with currentSplits := d.sheet.currentSplits.insert s.index s }

end Driver

namespace Engine

/-- Does something to the connected driver who occupies a place; nothing happens if there is
none. -/
def withCar (e : Engine) (car : CarId) (f : Guid → Driver → Engine × Outcome) :
    Engine × Outcome :=
  match e.board.atCar? car with
  | none => (e, .unchanged)
  | some (key, d) => f key d

/-- A driver finished loading. -/
def finishLoading (e : Engine) (car : CarId) (now : Instant) : Engine × Outcome :=
  e.withCar car fun key d =>
    let d := d.load now
    let board := (e.board.setDriver key d).updateMarker d (fun m => { m with active := true })
    (e.setBoard board, .changed [.driverLoaded d.guid])

/-- The marker with new telemetry. -/
def driveMarker (t : Telemetry) (m : Marker) : Marker :=
  { m with
    position := t.position
    speed := t.speed
    gear := Int32.ofNat t.gear.toNat - 1
    rpm := t.rpm
    maxRpm := max m.maxRpm t.rpm
    steerAngle := t.steerAngle }

def drive (e : Engine) (t : Telemetry) (now : Instant) : Engine × Outcome :=
  e.withCar t.carId fun key d =>
    let d := d.drive t now
    let board := (e.board.setDriver key d).updateMarker d (driveMarker t)
    (e.setBoard board, .changed [])

/-- A collision. It is recorded with the driver and announced. -/
def collide (e : Engine) (c : CollisionReport) (now : Instant) : Engine × Outcome :=
  e.withCar c.carId fun key d =>
    let other := c.otherCarId.bind e.board.driverByCar?
    let recorded : Collision :=
      { id := d.nextCollisionId
        impact := c.impact
        time := now
        otherGuid := other.map Driver.guid
        otherName := other.map (·.car.driverName)
        speed := c.speed.convert
        damage := c.damage }
    let (alerts, _) := e.alerts.offer ⟨d.guid, d.car.driverName, recorded⟩ now
    ({ e with board := e.board.setDriver key (d.collide recorded), alerts },
     .changed [.collisionRecorded d.guid])

/-- A completed lap. The leaderboard that comes with it raises the laps of other drivers. -/
def completeLap (e : Engine) (l : LapReport) (now : Instant) : Engine × Outcome :=
  e.withCar l.carId fun key d =>
    let board := e.board.setDriver key (d.completeLap l now)
    (e.setBoard (l.leaderboard.foldl Board.raiseLaps board), .changed [.lapCompleted d.guid])

/-- A completed split. -/
def completeSplit (e : Engine) (s : SplitReport) : Engine × Outcome :=
  e.withCar s.carId fun key d =>
    let split := d.judgeSplit s (e.board.bestSplit? s.index)
    (e.setBoard (e.board.setDriver key (d.addSplit split)), .changed [.splitCompleted d.guid])

def changeTyres (e : Engine) (car : CarInfo) : Engine × Outcome :=
  e.withCar car.carId fun key d =>
    (e.setBoard (e.board.setDriver key { d with car := { d.car with tyres := car.tyres } }),
     .changed [.tyresChanged d.guid car.tyres])

end Engine

end Pitwall
