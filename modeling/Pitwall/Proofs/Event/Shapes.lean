import Pitwall.Event.Envelope
import Pitwall.Proofs.Wire.Shapes

/-!
# Shapes of payloads — where a message may be spelt in many ways

For each structure that a message carries, the fields for which `null` stands as well, and the
structures inside; all else is plain. That the records read what these shapes say is shown one by
one, and comes to **`Message.tolerates_ofPayload?`**.
-/

namespace Pitwall

/-! ## Cars and what happens to them -/

namespace Coords

def shape : Shape := record.shape [] []

theorem tolerates : Tolerates record.codec.read shape :=
  Record.tolerates_plain (by decide) (by simp [record]) (List.forall_mem_nil _)

end Coords

namespace CarInfo

def shape : Shape := record.shape [] []

theorem tolerates : Tolerates record.codec.read shape :=
  Record.tolerates_plain (by decide) (by simp [record]) (List.forall_mem_nil _)

end CarInfo

namespace Collision

/-- Without another driver there is no GUID and no name. -/
def nullable : List String := ["OtherDriverGUID", "OtherDriverName"]

def shape : Shape := record.shape nullable []

theorem tolerates : Tolerates record.codec.read shape := by
  refine Record.tolerates_plain (by decide) (by simp [record]) ?_
  simp [nullable, record, Field.names, Field.of, Codec.option]

end Collision

/-! ## Drivers -/

namespace Split

def shape : Shape := record.shape [] []

theorem tolerates : Tolerates record.codec.read shape :=
  Record.tolerates_plain (by decide) (by simp [record]) (List.forall_mem_nil _)

theorem tolerates_table : Tolerates tableCodec.read (.map shape) := (tolerates.table _).nullAs _

end Split

namespace LapSheet

def nullable : List String := ["CurrentLapSplits", "BestLapSplits"]

def parts : List (String × Shape) :=
  [("CurrentLapSplits", .map Split.shape), ("BestLapSplits", .map Split.shape)]

def shape : Shape := record.shape nullable parts

theorem tolerates : Tolerates record.codec.read shape := by
  refine Record.tolerates_codec ⟨by decide, by simp [record], ?parts, ?nulls⟩
  case nulls => simp [nullable, record, Field.names, Field.of, Split.tableCodec, Codec.nullAs]
  simp only [record, List.forall_mem_cons]
  refine ⟨?_, ?_, ?_, ?_, ?_, ?_, ?_, ?_, ?_, ?current, ?best, List.forall_mem_nil _⟩
  case current => exact Field.tolerates_of Split.tolerates_table
  case best => exact Field.tolerates_of Split.tolerates_table
  all_goals exact Field.tolerates_of (.plain _)

end LapSheet

namespace Driver

def nullable : List String := ["Collisions", "Cars"]

def parts : List (String × Shape) :=
  [("CarInfo", CarInfo.shape), ("LastPos", Coords.shape), ("Collisions", .list Collision.shape),
   ("Cars", .map LapSheet.shape)]

def shape : Shape := record.shape nullable parts

theorem tolerates : Tolerates record.codec.read shape := by
  refine Record.tolerates_codec ⟨by decide, by simp [record], ?parts, ?nulls⟩
  case nulls => simp [nullable, record, Field.names, Field.of, Codec.nullAs]
  simp only [record, List.forall_mem_cons]
  refine ⟨?car, ?_, ?_, ?_, ?_, ?_, ?_, ?position, ?_, ?_, ?_, ?_, ?_, ?collisions, ?sheets,
    List.forall_mem_nil _⟩
  case car => exact Field.tolerates_of CarInfo.tolerates
  case position => exact Field.tolerates_of Coords.tolerates
  case collisions => exact Field.tolerates_of (Collision.tolerates.list.nullAs _)
  case sheets => exact Field.tolerates_of ((LapSheet.tolerates.table _).nullAs _)
  all_goals exact Field.tolerates_of (.plain _)

end Driver

/-! ## Snapshots -/

namespace SessionInfo

def shape : Shape := record.shape [] []

theorem tolerates : Tolerates record.codec.read shape :=
  Record.tolerates_plain (by decide) (by simp [record]) (List.forall_mem_nil _)

end SessionInfo

namespace TrackInfo

/-- All that is said of a track may be missing. -/
def nullable : List String :=
  ["name", "city", "country", "description", "length", "pitboxes", "width", "run"]

def shape : Shape := record.shape nullable []

theorem tolerates : Tolerates record.codec.read shape := by
  refine Record.tolerates_plain (by decide) (by simp [record]) ?_
  simp [nullable, record, Field.names, Field.of, Codec.anyText]

end TrackInfo

namespace TrackMap

def shape : Shape := record.shape [] []

theorem tolerates : Tolerates record.codec.read shape :=
  Record.tolerates_plain (by decide) (by simp [record]) (List.forall_mem_nil _)

end TrackMap

namespace Roster

def nullable : List String := ["Drivers", "GUIDsInPositionalOrder"]

def parts : List (String × Shape) := [("Drivers", .map Driver.shape)]

def shape : Shape := record.shape nullable parts

theorem tolerates : Tolerates record.codec.read shape := by
  refine Record.tolerates_codec ⟨by decide, by simp [record], ?parts, ?nulls⟩
  case nulls => simp [nullable, record, Field.names, Field.of, Codec.nullAs]
  simp only [record, List.forall_mem_cons]
  refine ⟨?drivers, ?_, List.forall_mem_nil _⟩
  case drivers => exact Field.tolerates_of ((Driver.tolerates.keyed _).nullAs _)
  all_goals exact Field.tolerates_of (.plain _)

end Roster

namespace Snapshot

def nullable : List String := ["ConnectedDrivers", "DisconnectedDrivers", "CarIDToGUID"]

def parts : List (String × Shape) :=
  [("SessionInfo", SessionInfo.shape), ("TrackInfo", TrackInfo.shape),
   ("TrackMapData", TrackMap.shape), ("ConnectedDrivers", Roster.shape),
   ("DisconnectedDrivers", Roster.shape)]

def shape : Shape := record.shape nullable parts

theorem tolerates : Tolerates record.codec.read shape := by
  refine Record.tolerates_codec ⟨by decide, by simp [record], ?parts, ?nulls⟩
  case nulls => simp [nullable, record, Field.names, Field.of, Codec.nullAs, Codec.option]
  simp only [record, List.forall_mem_cons]
  refine ⟨?session, ?_, ?_, ?track, ?map, ?connected, ?disconnected, ?_, List.forall_mem_nil _⟩
  case session => exact Field.tolerates_of SessionInfo.tolerates
  case track => exact Field.tolerates_of TrackInfo.tolerates
  case map => exact Field.tolerates_of TrackMap.tolerates
  case connected => exact Field.tolerates_of Roster.tolerates.option
  case disconnected => exact Field.tolerates_of Roster.tolerates.option
  all_goals exact Field.tolerates_of (.plain _)

end Snapshot

/-! ## Other messages -/

namespace Telemetry

def nullable : List String := ["BlueFlag"]

def parts : List (String × Shape) := [("Pos", Coords.shape), ("Velocity", Coords.shape)]

def shape : Shape := record.shape nullable parts

theorem tolerates : Tolerates record.codec.read shape := by
  refine Record.tolerates_codec ⟨by decide, by simp [record], ?parts, ?nulls⟩
  case nulls => simp [nullable, record, Field.names, Field.of, Codec.option]
  simp only [record, List.forall_mem_cons]
  refine ⟨?_, ?position, ?velocity, ?_, ?_, ?_, ?_, ?_, List.forall_mem_nil _⟩
  case position => exact Field.tolerates_of Coords.tolerates
  case velocity => exact Field.tolerates_of Coords.tolerates
  all_goals exact Field.tolerates_of (.plain _)

end Telemetry

namespace CollisionReport

def nullable : List String := ["OtherCarID"]

def parts : List (String × Shape) := [("WorldPos", Coords.shape), ("RelPos", Coords.shape)]

def shape : Shape := record.shape nullable parts

theorem tolerates : Tolerates record.codec.read shape := by
  refine Record.tolerates_codec ⟨by decide, by simp [record], ?parts, ?nulls⟩
  case nulls => simp [nullable, record, Field.names, Field.of, Codec.option]
  simp only [record, List.forall_mem_cons]
  refine ⟨?_, ?_, ?_, ?position, ?relative, ?_, List.forall_mem_nil _⟩
  case position => exact Field.tolerates_of Coords.tolerates
  case relative => exact Field.tolerates_of Coords.tolerates
  all_goals exact Field.tolerates_of (.plain _)

end CollisionReport

namespace LeaderboardLine

def shape : Shape := record.shape [] []

theorem tolerates : Tolerates record.codec.read shape :=
  Record.tolerates_plain (by decide) (by simp [record]) (List.forall_mem_nil _)

end LeaderboardLine

namespace LapReport

def nullable : List String := ["Cars"]

def parts : List (String × Shape) := [("Cars", .list LeaderboardLine.shape)]

def shape : Shape := record.shape nullable parts

theorem tolerates : Tolerates record.codec.read shape := by
  refine Record.tolerates_codec ⟨by decide, by simp [record], ?parts, ?nulls⟩
  case nulls => simp [nullable, record, Field.names, Field.of, Codec.nullAs]
  simp only [record, List.forall_mem_cons]
  refine ⟨?_, ?_, ?_, ?_, ?_, ?lines, List.forall_mem_nil _⟩
  case lines => exact Field.tolerates_of (LeaderboardLine.tolerates.list.nullAs _)
  all_goals exact Field.tolerates_of (.plain _)

end LapReport

namespace SplitReport

def shape : Shape := record.shape [] []

theorem tolerates : Tolerates record.codec.read shape :=
  Record.tolerates_plain (by decide) (by simp [record]) (List.forall_mem_nil _)

end SplitReport

namespace ChatMessage

def shape : Shape := record.shape [] []

theorem tolerates : Tolerates record.codec.read shape :=
  Record.tolerates_plain (by decide) (by simp [record]) (List.forall_mem_nil _)

end ChatMessage

/-! ## Payloads -/

/-- The shape of the payload of a kind of message. -/
def Tag.shape : Tag → Shape
  | .raceControl => Snapshot.shape
  | .newSession | .sessionInfo => SessionInfo.shape
  | .newConnection | .connectionClosed | .tyresChanged => CarInfo.shape
  | .carUpdate => Telemetry.shape
  | .collisionWithCar | .collisionWithEnvironment => CollisionReport.shape
  | .lapCompleted => LapReport.shape
  | .splitCompleted => SplitReport.shape
  | .chat => ChatMessage.shape
  | .version | .clientLoaded | .endSession | .error | .carInfo | .clientEvent => .plain

/-- **PAYLOADS** may be spelt as their shape says, whatever the kind of message. -/
theorem Message.tolerates_ofPayload? (tag : Tag) :
    Tolerates (fun payload => Message.ofPayload? payload tag) tag.shape := by
  cases tag with
  | raceControl => exact Snapshot.tolerates.through fun j j' h => by simp only [ofPayload?, h]
  | newSession | sessionInfo =>
      exact SessionInfo.tolerates.through fun j j' h => by simp only [ofPayload?, h]
  | newConnection | connectionClosed | tyresChanged =>
      exact CarInfo.tolerates.through fun j j' h => by simp only [ofPayload?, h]
  | carUpdate => exact Telemetry.tolerates.through fun j j' h => by simp only [ofPayload?, h]
  | collisionWithCar | collisionWithEnvironment =>
      exact CollisionReport.tolerates.through fun j j' h => by
        simp only [ofPayload?, collision?, h]
  | lapCompleted => exact LapReport.tolerates.through fun j j' h => by simp only [ofPayload?, h]
  | splitCompleted => exact SplitReport.tolerates.through fun j j' h => by simp only [ofPayload?, h]
  | chat => exact ChatMessage.tolerates.through fun j j' h => by simp only [ofPayload?, h]
  | _ => exact .plain _

end Pitwall
