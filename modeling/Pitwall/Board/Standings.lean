import Pitwall.Board.Basic

/-!
# Standings — the display orders

In a race the connected drivers stand by **`Driver.racingOrder`**, the drivers who left by the
laps in their car. In other sessions the connected drivers keep the server's order, and those
who left stand by their best lap. Ties go by GUID or slot, so a standing depends on the drivers
alone and not on the order they stood in before.
-/

namespace Pitwall

namespace Driver

/-- The rank given by the server; unranked drivers come after all others. -/
def serverRank (d : Driver) : Int32 := if d.isRanked then d.position else Int32.maxValue

/-- Who stands before whom in a race: more laps, then further around the lap, then the
server's rank, then the GUID. -/
def racingOrder (a b : Driver) : Ordering :=
  (compare b.totalLaps a.totalLaps).then
    ((b.spline.totalOrder a.spline).then
      ((compare a.serverRank b.serverRank).then (compare a.guid b.guid)))

/-- The laps in the active car. -/
def activeLaps (d : Driver) : UInt32 := d.sheet?.elim 0 LapSheet.laps

/-- The best lap in the active car, if a valid one has been set. -/
def activeBestLap? (d : Driver) : Option Int64 :=
  (d.sheet?.filter LapSheet.hasValidLap).map LapSheet.bestLap

/-- Who stands before whom among those who left: in a race by laps in the car, else by best
lap, those without one last. -/
def leftOrder (kind : SessionKind) (a b : Driver) : Ordering :=
  if kind = .race then compare b.activeLaps a.activeLaps
  else
    match a.activeBestLap?, b.activeBestLap? with
    | some s, some t => compare s t
    | some _, none => .lt
    | none, some _ => .gt
    | none, none => .eq

end Driver

/-- The keys of the entries as sorted by an order. -/
def sortedKeys {κ : Type} (order : κ × Driver → κ × Driver → Ordering)
    (entries : List (κ × Driver)) : List κ :=
  (entries.mergeSort (fun a b => order a b != .gt)).map Prod.fst

/-- The standing of the connected drivers. -/
def standing (kind : SessionKind) (drivers : Keyed Guid Driver) : List Guid :=
  if kind = .race then sortedKeys (fun a b => a.2.racingOrder b.2) drivers.entries
  else drivers.keys

/-- The standing of the drivers who left. -/
def leftStanding (kind : SessionKind) (drivers : Keyed Slot Driver) : List Slot :=
  sortedKeys (fun a b => (Driver.leftOrder kind a.2 b.2).then (compare a.1 b.1)) drivers.entries

namespace Board

/-- Brings the connected drivers into the order of their standing. -/
def rankConnected (b : Board) : Board :=
  { b with connected := b.connected.arrange (standing b.session.kind b.connected) }

/-- Brings the drivers who left into the order of their standing. -/
def rankDisconnected (b : Board) : Board :=
  { b with disconnected := b.disconnected.arrange (leftStanding b.session.kind b.disconnected) }

end Board

end Pitwall
