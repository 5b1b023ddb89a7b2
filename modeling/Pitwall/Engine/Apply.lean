import Pitwall.Board.Standings
import Pitwall.Engine.Connections
import Pitwall.Engine.Driving
import Pitwall.Engine.Resync

/-!
# Applying events and ticks

**`Engine.apply`** merges one event. **`Engine.tick`** runs one of the periodic jobs; these do
nothing before the first snapshot.
-/

namespace Pitwall

namespace Engine

/-- Takes in a chat message. -/
def hear (e : Engine) (m : ChatMessage) : Engine × Outcome :=
  ({ e with chat := (e.chat.push m).1 }, .changed [.chatReceived])

/-- Merges an event whose time has been noted. -/
def merge (e : Engine) (now : Instant) : Event → Engine × Outcome
  | .snapshot s => e.resync s now
  | .newConnection car => e.connect car now
  | .connectionClosed car => e.disconnect car.guid
  | .clientLoaded car => e.finishLoading car now
  | .carUpdate t => e.drive t now
  | .collision c => e.collide c now
  | .lapCompleted l => e.completeLap l now
  | .splitCompleted s => e.completeSplit s
  | .tyresChanged car => e.changeTyres car
  | .chat m => e.hear m
  | .newSession _ => (e, .notify .sessionStarted)
  | .sessionInfo _ => (e, .notify .sessionInfoUpdated)
  | .endSession file => (e, .notify (.sessionEnded file))
  | .serverError text => (e, .notify (.serverError text))
  | .ignored _ => (e, .unchanged)

/-- Merges an event that came in at the given time. -/
def apply (e : Engine) (event : Event) (now : Instant) : Engine × Outcome :=
  { e with lastAppliedAt := some now }.merge now event

end Engine

/-- The periodic jobs. -/
inductive Tick where
  | progress
  | standings
  /-- Forgets old collisions and asks for telemetry readouts. -/
  | feeds
  deriving DecidableEq

namespace Engine

/-- Sorts the standings and announces those that changed. -/
def rank (e : Engine) : Engine × List Notification :=
  let connected := e.board.rankConnected
  let both := connected.rankDisconnected
  (e.setBoard both,
   (if both.connected.keys = e.board.connected.keys then [] else [.standingsChanged]) ++
   (if both.disconnected.keys = e.board.disconnected.keys then []
    else [.disconnectedStandingsChanged]))

/-- Runs a periodic job. -/
def tick (e : Engine) (t : Tick) (now : Instant) : Engine × List Notification :=
  if !e.board.initialised then (e, [])
  else
    match t with
    | .progress => (e, [.progressUpdated (e.board.progress now)])
    | .standings => e.rank
    | .feeds => ({ e with alerts := (e.alerts.sweep now).1 }, [.telemetryRefreshed])

end Engine

end Pitwall
