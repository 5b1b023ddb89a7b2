import Pitwall.Driver.Basic
import Pitwall.Session.Info
import Pitwall.Session.Track

/-!
# Snapshots — the server's full picture

A snapshot replaces all that is known about session and drivers. Its maps have an order of
entries only because every value has one; nothing that is made from a snapshot may depend on
it beyond what the entries themselves decide.
-/

namespace Pitwall

/-- Drivers with the order in which the server ranks them. -/
structure Roster where
  /-- The records by GUID. -/
  drivers : Keyed Guid Driver := .empty
  /-- The GUIDs by rank; some may be unknown, missing or repeated. -/
  order : List Guid := []
  deriving DecidableEq, BEq

namespace Roster

instance : Inhabited Roster := ⟨{}⟩

def record : Record Roster where
  start := {}
  fields :=
    [.of "Drivers" (.nullAs .empty (.keyed Guid.key Driver.record.codec)) (·.drivers)
       (fun g v => { g with drivers := v }),
     .of "GUIDsInPositionalOrder" (.nullAs [] (.list Guid.codec)) (·.order)
       (fun g v => { g with order := v })]

end Roster

/-- The server's full picture. -/
structure Snapshot where
  session : SessionInfo := {}
  startedAt : Instant := .zero
  /-- Milliseconds between two updates of positions. -/
  updateMillis : UInt32 := 0
  track : TrackInfo := {}
  map : TrackMap := {}
  connected : Option Roster := none
  /-- The drivers who left. -/
  disconnected : Option Roster := none
  /-- Who occupies which place on the server. -/
  cars : Keyed CarId Guid := .empty
  deriving DecidableEq, BEq

namespace Snapshot

instance : Inhabited Snapshot := ⟨{}⟩

def record : Record Snapshot where
  start := {}
  fields :=
    [.of "SessionInfo" SessionInfo.record.codec (·.session) (fun s v => { s with session := v }),
     .of "SessionStartTime" .instant (·.startedAt) (fun s v => { s with startedAt := v }),
     .of "CurrentRealtimePosInterval" .uint32 (·.updateMillis)
       (fun s v => { s with updateMillis := v }),
     .of "TrackInfo" TrackInfo.record.codec (·.track) (fun s v => { s with track := v }),
     .of "TrackMapData" TrackMap.record.codec (·.map) (fun s v => { s with map := v }),
     .of "ConnectedDrivers" (.option Roster.record.codec) (·.connected)
       (fun s v => { s with connected := v }),
     .of "DisconnectedDrivers" (.option Roster.record.codec) (·.disconnected)
       (fun s v => { s with disconnected := v }),
     .of "CarIDToGUID" (.nullAs .empty (.keyed .uint32 Guid.codec)) (·.cars)
       (fun s v => { s with cars := v })]

end Snapshot

end Pitwall
