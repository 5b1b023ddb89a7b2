import Pitwall.Display.Placing
import Pitwall.Display.Speed
import Pitwall.Display.Weather
import Pitwall.Engine.Basic

/-!
# The view — what is shown at an instant

A `View` reads the engine at an instant and turns it into texts: titles, the clock, the placings
of the standings, the cards of collisions and the markers on the map.
-/

namespace Pitwall

structure AlertCard where
  /-- A name of its own for the card. -/
  id : String
  title : String
  driverName : String
  speed : String
  damage : Damage
  deriving DecidableEq

namespace Alert

/-- What happened, in words. -/
def title (a : Alert) : String :=
  match a.collision.impact with
  | .car => "Crash with " ++ a.collision.otherName.getD "another car"
  | .environment => "Crash " ++ a.collision.impact.text

/-- The name of a collision's card: the driver, a word, and the number. -/
def cardId (i : AlertId) : String :=
  i.guid.text ++ "-collision-" ++ String.ofList (Text.decimal i.number.toNat)

def card (a : Alert) (unit : SpeedUnit) : AlertCard :=
  ⟨cardId a.id, a.title, a.driverName, unit.text a.collision.speed, a.collision.damage⟩

end Alert

/-- A marker as drawn. -/
structure DrawnMarker where
  guid : Guid
  initials : String
  /-- Whether the marker is drawn. -/
  active : Bool
  /-- Where on the image the car is. -/
  place : Binary32 × Binary32
  speed : String
  gear : Int32
  /-- The revolutions as a fraction of the highest ones seen. -/
  rpmShare : Binary32
  deriving DecidableEq

/-- The engine as seen at an instant. -/
structure View where
  /-- The state. -/
  engine : Engine
  unit : SpeedUnit
  /-- The instant. -/
  now : Instant

namespace View

def session (v : View) : SessionInfo := v.engine.board.session

/-- Kind and track of the session, such as `Solo Practice at Spa`. -/
def title (v : View) : String :=
  (if v.session.isSolo then "Solo " else "") ++ v.session.kind.name ++ " at " ++
    v.engine.board.track.name

/-- City and country of the track. -/
def location (v : View) : String :=
  v.engine.board.track.city ++ ", " ++ v.engine.board.track.country

def weather (v : View) : String := Weather.title v.session.weather

/-- The temperatures of air and road. -/
def temperatures (v : View) : UInt8 × UInt8 := (v.session.ambientTemp, v.session.roadTemp)

def progress (v : View) : Progress := v.engine.board.progress v.now

/-- The best lap with its tyres, as far as they are known. -/
def bestLapText (s : LapSheet) : String :=
  let best := lapTimeText s.bestLap.toInt
  if s.bestLapTyres.isEmpty || best.isEmpty then best
  else best ++ " (" ++ s.bestLapTyres ++ ")"

/-- The placing of a driver with what holds of all, whether connected or not. -/
def filedPlacing (v : View) (rank : Nat) (d : Driver) : Placing :=
  let sheet := d.sheet?.getD {}
  { rank
    serverPosition := if d.isRanked then some d.position else none
    guid := d.guid
    driverName := d.car.driverName
    carName := if sheet.carName.isEmpty then Text.readableName d.model else sheet.carName
    tyres := ""
    currentLap := ""
    splits := []
    lastLap := ""
    bestLap := bestLapText sheet
    gap := ""
    laps := sheet.laps
    totalLaps := d.totalLaps
    topSpeed :=
      if (Binary.zero false).lt sheet.bestLapTopSpeed then v.unit.text sheet.bestLapTopSpeed
      else ""
    inPits := false
    blueFlag := false }

/-- The time of the lap under way. It runs from the last lap, if that belongs to this session,
and is shown as far as the clock can measure it. -/
def currentLapText (v : View) (d : Driver) (s : LapSheet) : String :=
  let onLap := s.lastLapAt.elapsed v.now
  if d.isLoaded && decide (v.engine.board.startedAt ≤ s.lastLapAt) &&
      decide (onLap.natAbs ≤ 9223372036854775807) then lapTimeText onLap
  else ""

/-- The placing of a connected driver. -/
def connectedPlacing (v : View) (rank : Nat) (d : Driver) : Placing :=
  let placing := v.filedPlacing rank d
  match d.sheet? with
  | none => placing
  | some s =>
    { placing with
      currentLap := v.currentLapText d s
      tyres := d.car.tyres
      splits := s.currentSplits.values.map Split.shown
      lastLap := lapTimeText s.lastLap.toInt
      gap := d.gap
      inPits := d.inPits
      blueFlag := d.blueFlag }

/-- The placings of drivers in their order, counted from 1. -/
def placings (placing : Nat → Driver → Placing) (drivers : List Driver) : List Placing :=
  drivers.mapIdx (fun i d => placing (i + 1) d)

/-- The placings of the connected drivers. -/
def standings (v : View) : List Placing :=
  placings v.connectedPlacing v.engine.board.connected.values

/-- The placings of the drivers who left. Cars without laps are left out. -/
def disconnected (v : View) : List Placing :=
  placings v.filedPlacing (v.engine.board.disconnected.values.filter (fun d =>
    d.sheet?.any (fun s => decide (0 < s.laps))))

/-- The chat messages, oldest first. -/
def chat (v : View) : List ChatMessage := v.engine.chat.messages

/-- The cards of the collisions that are shown, oldest first. -/
def collisions (v : View) : List AlertCard :=
  (v.engine.alerts.shown v.now).map (·.card v.unit)

def marker? (v : View) (guid : Guid) : Option DrawnMarker :=
  (v.engine.board.markers.get? guid).map (fun m =>
    ⟨m.guid, m.initials, m.active, v.engine.board.map.place m.position, v.unit.text m.speed,
      m.gear, m.rpmShare⟩)

end View

end Pitwall
