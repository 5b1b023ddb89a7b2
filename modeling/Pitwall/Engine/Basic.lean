import Pitwall.Board.OfSnapshot
import Pitwall.Board.Progress
import Pitwall.Feed.Alerts
import Pitwall.Feed.Scrollback

/-!
# The engine — its state and what it announces

The `Engine` merges events into the board and the feeds that hang off it. Each event has an
`Outcome`: whether anything changed, and what is announced.
-/

namespace Pitwall

/-- What is announced to those who watch. -/
inductive Notification where
  | snapshotApplied
  /-- The track or its layout is another one. -/
  | trackChanged (track layout : String)
  | weatherChanged (weather : String)
  | driverConnected (guid : Guid)
  /-- A driver left and stays on file. -/
  | driverDisconnected (guid : Guid)
  /-- A driver left before loading or completing a lap. -/
  | driverPurged (guid : Guid)
  | driverLoaded (guid : Guid)
  | lapCompleted (guid : Guid)
  | splitCompleted (guid : Guid)
  | tyresChanged (guid : Guid) (tyres : String)
  | collisionRecorded (guid : Guid)
  | chatReceived
  | sessionStarted
  | sessionInfoUpdated
  | sessionEnded (resultsFile : String)
  | serverError (text : String)
  /-- The connected drivers stand in another order. -/
  | standingsChanged
  /-- The drivers who left stand in another order. -/
  | disconnectedStandingsChanged
  | progressUpdated (progress : Progress)
  | telemetryRefreshed
  deriving DecidableEq

/-- What came of an event. -/
structure Outcome where
  /-- Whether anything changed. -/
  mutated : Bool
  /-- What is announced, in order. -/
  notifications : List Notification
  deriving DecidableEq

namespace Outcome

/-- Nothing changed, and nothing is announced. -/
def unchanged : Outcome := ⟨false, []⟩

def changed (ns : List Notification) : Outcome := ⟨true, ns⟩

/-- Nothing changed, but something is announced. -/
def notify (n : Notification) : Outcome := ⟨false, [n]⟩

end Outcome

/-- The state of race control. -/
structure Engine where
  board : Board := {}
  /-- The latest chat messages. -/
  chat : Scrollback := default
  alerts : Alerts := {}
  /-- The time of the latest event. -/
  lastAppliedAt : Option Instant := none
  deriving DecidableEq, BEq

namespace Engine

instance : Inhabited Engine := ⟨{}⟩

/-- The state before anything has happened. -/
def initial : Engine := {}

/-- The engine with another board. -/
def setBoard (e : Engine) (b : Board) : Engine := { e with board := b }

end Engine

end Pitwall
