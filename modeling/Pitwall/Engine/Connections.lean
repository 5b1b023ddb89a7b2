import Pitwall.Engine.Basic

/-!
# Connections — drivers who come and go

A driver who comes back picks up the record filed for the car, or else the one that stands
last among the driver's records. A driver who leaves is filed, except before loading or
completing a lap: then only the cars with laps stay on file.
-/

namespace Pitwall

namespace Board

/-- The record that a returning driver picks up: the one of the car, or else the one that
stands last. -/
def history? (b : Board) (car : CarInfo) : Option Driver :=
  let records := b.disconnected.entries.filter (fun e => e.1.guid = car.guid)
  match records.find? (fun e => e.1.model = car.model) with
  | some e => some e.2
  | none => records.getLast?.map Prod.snd

/-- The record of a driver who connects. -/
def arriving (b : Board) (car : CarInfo) (now : Instant) : Driver :=
  match b.history? car with
  | none => .ofCar car now
  | some d =>
    { d.addSheet car with car, connectedAt := now, loadedAt := .zero, lastSeen := now }

/-- The record of a driver who was connected already and connects again. -/
def rejoining (d : Driver) (car : CarInfo) (now : Instant) : Driver :=
  { d.addSheet car with car, lastSeen := now }

def connect (b : Board) (car : CarInfo) (now : Instant) : Board :=
  let record := (b.connected.get? car.guid).elim (b.arriving car now) (rejoining · car now)
  let b :=
    { b with
      connected := b.connected.insert car.guid record
      cars := b.cars.insert car.carId car.guid }
  let b := b.sync car.guid
  { b with markers := b.markers.insert car.guid (.ofCar car) }

end Board

namespace Engine

def connect (e : Engine) (car : CarInfo) (now : Instant) : Engine × Outcome :=
  (e.setBoard (e.board.connect car now), .changed [.driverConnected car.guid])

def disconnect (e : Engine) (guid : Guid) : Engine × Outcome :=
  match e.board.connected.get? guid with
  | none => (e, .unchanged)
  | some d =>
    if !d.isLoaded || d.totalLaps == 0 then
      (e.setBoard (e.board.purge guid), .changed [.driverPurged guid])
    else
      (e.setBoard ((e.board.remove guid).file d), .changed [.driverDisconnected guid])

end Engine

end Pitwall
