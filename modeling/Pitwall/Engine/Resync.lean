import Pitwall.Engine.Basic

/-!
# Resynchronising — applying a snapshot

A snapshot replaces the board. What snapshots do not carry, the telemetry of markers, is taken
over for drivers who are still connected; their collisions are offered to the alerts, which
know those that they have announced. Track and weather are announced where they differ from
the board before, and always with the first snapshot.
-/

namespace Pitwall

namespace Board

/-- Takes over an earlier marker: its telemetry where the driver has a marker again, and all of
it where the driver is connected without one. -/
def takeOverMarker (b : Board) (guid : Guid) (earlier : Marker) : Board :=
  if b.connected.contains guid then
    { b with
      markers := b.markers.insert guid
        ((b.markers.get? guid).elim earlier (·.withTelemetryOf earlier)) }
  else b

/-- Takes over earlier markers. -/
def takeOverMarkers (b : Board) (earlier : Table Guid Marker) : Board :=
  earlier.entries.foldl (fun b e => b.takeOverMarker e.1 e.2) b

/-- Whether another board shows a track that is new after this one. -/
def tellsTrack (before after : Board) : Bool :=
  !before.initialised || before.session.track != after.session.track ||
    before.session.layout != after.session.layout

/-- Whether another board shows weather that is new after this one. -/
def tellsWeather (before after : Board) : Bool :=
  !before.initialised || before.session.weather != after.session.weather

/-- The collisions of the connected drivers as alerts, in display order. -/
def collisionAlerts (b : Board) : List Alert :=
  b.connected.entries.flatMap (fun e =>
    e.2.collisions.map (fun c => ⟨e.1, e.2.car.driverName, c⟩))

end Board

/-- Offers alerts one after the other and tells whether any was taken up. -/
def Alerts.offerAll (a : Alerts) (offers : List Alert) (now : Instant) : Alerts × Bool :=
  offers.foldl (fun (a, any) o => let (a, taken) := a.offer o now; (a, any || taken)) (a, false)

namespace Engine

def resync (e : Engine) (s : Snapshot) (now : Instant) : Engine × Outcome :=
  let board := (Board.ofSnapshot s).takeOverMarkers e.board.markers
  let (alerts, offered) := e.alerts.offerAll board.collisionAlerts now
  let track :=
    if e.board.tellsTrack board then
      [Notification.trackChanged board.session.track board.session.layout]
    else []
  let weather :=
    if e.board.tellsWeather board then [.weatherChanged board.session.weather] else []
  ({ e with board, alerts },
   ⟨offered || board != e.board, track ++ weather ++ [.snapshotApplied]⟩)

end Engine

end Pitwall
