import Pitwall.Board.Occupancy
import Pitwall.Board.Marker
import Pitwall.Session.Snapshot

/-!
# The board — all that is known of session and drivers

The `Board` holds the session, the connected drivers and the records of those who left, both in
the order they are displayed in, who occupies which place, and the markers. Until the first
snapshot it is not initialised.

A connected driver has one record under the GUID. A driver who drove several cars has one
record per car among those who left, filed under the slot of GUID and model; the car that is
driven now is not among them.

* **`Board.file`** files every car of a driver who left.
* **`Board.sync`** keeps the filed cars of a connected driver in line with the connected record.
* **`Board.purge`** takes off a driver who left without a usable stint.
-/

namespace Pitwall

/-- All that is known of session and drivers. -/
structure Board where
  /-- Whether a snapshot has arrived. -/
  initialised : Bool := false
  session : SessionInfo := {}
  startedAt : Instant := .zero
  /-- Milliseconds between two updates of positions. -/
  updateMillis : UInt32 := 0
  track : TrackInfo := {}
  map : TrackMap := {}
  /-- The drivers on the server, in display order. -/
  connected : Keyed Guid Driver := .empty
  /-- The records of drivers who left, in display order. -/
  disconnected : Keyed Slot Driver := .empty
  /-- Who occupies which place. -/
  cars : Occupancy := .empty
  markers : Table Guid Marker := .empty
  deriving DecidableEq, BEq

namespace Board

instance : Inhabited Board := ⟨{}⟩

/-- The GUID of the connected driver who occupies a place. -/
def occupant? (b : Board) (car : CarId) : Option Guid :=
  (b.cars.guid? car).filter b.connected.contains

/-- The record of the connected driver who occupies a place. -/
def driverByCar? (b : Board) (car : CarId) : Option Driver :=
  b.cars.guid? car >>= b.connected.get?

/-- The driver who leads the connected ones. -/
def leader? (b : Board) : Option Driver := b.connected.values.head?

/-- Sets the record of a connected driver. -/
def setDriver (b : Board) (guid : Guid) (d : Driver) : Board :=
  { b with connected := b.connected.modify guid (fun _ => d) }

/-- Files records of drivers who left, each under its slot. -/
def fileAll (b : Board) (records : List Driver) : Board :=
  { b with disconnected := records.foldl (fun m d => m.insert d.slot d) b.disconnected }

/-- Files every car of a driver who left as a record of its own, and the record itself where
the active car has no lap sheet. -/
def file (b : Board) (d : Driver) : Board :=
  b.fileAll ((if d.sheets.contains d.model then [] else [d]) ++ d.variants d.sheets.keys)

/-- Keeps the filed cars of a connected driver in line with the connected record: the active
car is not filed, every other car is. -/
def sync (b : Board) (guid : Guid) : Board :=
  match b.connected.get? guid with
  | none => b
  | some d =>
    fileAll { b with disconnected := b.disconnected.erase d.slot }
      (d.variants (d.sheets.keys.filter (fun m => m ≠ d.model)))

/-- Takes off a connected driver with place and marker. -/
def remove (b : Board) (guid : Guid) : Board :=
  { b with
    connected := b.connected.erase guid
    cars := (b.cars.remove guid).1
    markers := b.markers.erase guid }

/-- Takes off a driver who left without a usable stint. The cars in which the driver has laps
stay on file, and so do records of earlier stints. -/
def purge (b : Board) (guid : Guid) : Board :=
  let lapped :=
    match b.connected.get? guid with
    | none => []
    | some d => d.variants (d.sheets.filter (fun _ s => 0 < s.laps)).keys
  (b.remove guid).fileAll lapped

end Board

end Pitwall
