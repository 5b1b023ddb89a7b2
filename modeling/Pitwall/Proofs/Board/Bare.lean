import Pitwall.Engine.Apply
import Pitwall.Proofs.Board.Filing

/-!
# Bare boards — all but the markers

What happens to the rest of a board does not come from its markers: each operation does to the
bare board what it does to the board.
-/

namespace Pitwall

namespace Board

/-- The board without its markers. -/
def bare (b : Board) : Board := { b with markers := .empty }

theorem bare_sync (b : Board) (g : Guid) : (b.sync g).bare = b.bare.sync g := by
  have hget : b.bare.connected.get? g = b.connected.get? g := rfl
  rw [sync, sync, hget]
  cases b.connected.get? g with
  | none => rfl
  | some d => rfl

theorem bare_purge (b : Board) (g : Guid) : (b.purge g).bare = (b.bare.purge g).bare := by
  have hget : b.bare.connected.get? g = b.connected.get? g := rfl
  rw [purge, purge, hget]
  rfl

theorem bare_connect (b : Board) (car : CarInfo) (now : Instant) :
    (b.connect car now).bare = (b.bare.connect car now).bare := by
  show ((b.entering car now).sync car.guid).bare = ((b.bare.entering car now).sync car.guid).bare
  rw [bare_sync, bare_sync]
  rfl

theorem bare_raiseLaps (b : Board) (line : LeaderboardLine) :
    (b.raiseLaps line).bare = b.bare.raiseLaps line := by
  have hat : b.bare.atCar? line.carId = b.atCar? line.carId := rfl
  rw [raiseLaps, raiseLaps, hat]
  cases b.atCar? line.carId with
  | none => rfl
  | some p => rfl

theorem bare_foldl_raiseLaps (b : Board) (lines : List LeaderboardLine) :
    (lines.foldl raiseLaps b).bare = lines.foldl raiseLaps b.bare := by
  induction lines generalizing b with
  | nil => rfl
  | cons line lines ih => rw [List.foldl_cons, List.foldl_cons, ih, bare_raiseLaps]

theorem get?_markers_remove (b : Board) (guid g : Guid) :
    (b.remove guid).markers.get? g = if g = guid then none else b.markers.get? g :=
  Table.get?_erase _ _ _

theorem markers_sync (b : Board) (g : Guid) : (b.sync g).markers = b.markers := by
  rw [sync_eq]

theorem markers_connect (b : Board) (car : CarInfo) (now : Instant) :
    (b.connect car now).markers = b.markers.insert car.guid (.ofCar car) := by
  rw [connect_eq, markers_sync]
  rfl

/-- A leaderboard changes nothing but the records of connected drivers. -/
theorem foldl_raiseLaps_eq (b : Board) (lines : List LeaderboardLine) :
    lines.foldl raiseLaps b =
      { b with connected := (lines.foldl raiseLaps b).connected } := by
  induction lines generalizing b with
  | nil => rfl
  | cons line lines ih =>
      have hstep : b.raiseLaps line = { b with connected := (b.raiseLaps line).connected } := by
        rw [raiseLaps]
        split <;> rfl
      rw [List.foldl_cons, ih, hstep]

/-- Taking over markers changes markers only. -/
theorem bare_takeOverMarkers (b : Board) (earlier : Table Guid Marker) :
    (b.takeOverMarkers earlier).bare = b.bare := by
  rw [takeOverMarkers]
  induction earlier.entries generalizing b with
  | nil => rfl
  | cons e es ih =>
      have hstep : (b.takeOverMarker e.1 e.2).bare = b.bare := by
        rw [takeOverMarker]
        split <;> rfl
      rw [List.foldl_cons, ih, hstep]

theorem connected_takeOverMarkers (b : Board) (earlier : Table Guid Marker) :
    (b.takeOverMarkers earlier).connected = b.connected := by
  show (b.takeOverMarkers earlier).bare.connected = _
  rw [bare_takeOverMarkers]
  rfl

theorem disconnected_takeOverMarkers (b : Board) (earlier : Table Guid Marker) :
    (b.takeOverMarkers earlier).disconnected = b.disconnected := by
  show (b.takeOverMarkers earlier).bare.disconnected = _
  rw [bare_takeOverMarkers]
  rfl

theorem session_takeOverMarkers (b : Board) (earlier : Table Guid Marker) :
    (b.takeOverMarkers earlier).session = b.session := by
  show (b.takeOverMarkers earlier).bare.session = _
  rw [bare_takeOverMarkers]
  rfl

end Board

end Pitwall
