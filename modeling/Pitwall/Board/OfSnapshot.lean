import Pitwall.Board.Basic

/-!
# From snapshots to boards

**`Board.ofSnapshot`** builds the board that a snapshot describes. The drivers of a group come
in the order of the server's ranking (**`Roster.ranked`**); those it does not mention
follow by GUID, so that the order of the map's entries does not show.
-/

namespace Pitwall

/-- The entries of a table, in the order of the keys. -/
def Table.toKeyed {κ ν : Type} [Ord κ] [Std.LawfulEqOrd κ] (t : Table κ ν) : Keyed κ ν where
  entries := t.entries
  distinct := t.ascending.imp (fun {a b} h hab => by
    rw [hab, Std.ReflOrd.compare_self] at h
    cases h)

namespace Driver

/-- The record under another GUID. -/
def withGuid (d : Driver) (guid : Guid) : Driver := { d with car := { d.car with guid } }

end Driver

namespace Roster

/-- The drivers of a group: first those of the server's ranking, each once, then the others by
GUID. The key of the map, not the record, says who a driver is. -/
def ranked (g : Roster) : List Driver :=
  (((Table.ofList g.drivers.entries).toKeyed.arrange g.order).entries).map
    (fun e => e.2.withGuid e.1)

end Roster

namespace Board

/-- The marker of a driver as far as a snapshot tells. -/
def snapshotMarker (d : Driver) : Marker :=
  { Marker.ofCar d.car with
    active := true
    position := d.lastPosition
    steerAngle := d.steerAngle }

/-- The markers of the drivers who have loaded. -/
def snapshotMarkers (drivers : Keyed Guid Driver) : Table Guid Marker :=
  drivers.entries.foldl
    (fun t e => if e.2.isLoaded then t.insert e.1 (snapshotMarker e.2) else t) .empty

/-- The board that a snapshot describes. Cars of a connected driver that are not driven now are
filed with the records of those who left. -/
def ofSnapshot (s : Snapshot) : Board :=
  let connected :=
    Keyed.ofList ((s.connected.elim [] Roster.ranked).map (fun d => (d.guid, d)))
  let start : Board :=
    { initialised := true
      session := s.session
      startedAt := s.startedAt
      updateMillis := s.updateMillis
      track := s.track
      map := s.map
      cars := .ofListing s.cars
      connected }
  let filed := (s.disconnected.elim [] Roster.ranked).foldl Board.file start
  let synced := connected.keys.foldl Board.sync filed
  { synced with markers := snapshotMarkers connected }

end Board

end Pitwall
