import Pitwall.Engine.Apply
import Pitwall.Link.Backoff
import Pitwall.Link.Fault
import Pitwall.Wire.Record

/-!
# Settings — what the user has chosen

Settings are kept as a JSON object; a setting that is missing has its default.
-/

namespace Pitwall

/-- The choices of the user. -/
structure Settings where
  serverAddress : String
  /-- Whether speeds are shown in mph. -/
  useMph : Bool
  /-- Milliseconds between two looks at the session clock. -/
  progressMillis : UInt64
  /-- Milliseconds between two sortings of the standings. -/
  standingsMillis : UInt64
  /-- Milliseconds between two sweeps of the feeds. -/
  feedsMillis : UInt64
  /-- The least delay before connecting again, in milliseconds. -/
  leastDelayMillis : UInt64
  /-- The greatest delay before connecting again, in milliseconds. -/
  greatestDelayMillis : UInt64
  deriving DecidableEq

namespace Settings

/-- The period of a job where nothing else is set, in milliseconds. -/
def defaultPeriod : UInt64 := 1000

instance : Inhabited Settings where
  default :=
    { serverAddress := "ws://localhost:8772/api/race-control"
      useMph := false
      progressMillis := defaultPeriod
      standingsMillis := defaultPeriod
      feedsMillis := defaultPeriod
      leastDelayMillis := UInt64.ofNat Backoff.defaultLeast
      greatestDelayMillis := UInt64.ofNat Backoff.defaultGreatest }

def record : Record Settings where
  start := default
  fields :=
    [.of "server_url" .string (·.serverAddress) (fun s v => { s with serverAddress := v }),
     .of "use_mph" .bool (·.useMph) (fun s v => { s with useMph := v }),
     .of "progress_interval_ms" .uint64 (·.progressMillis)
       (fun s v => { s with progressMillis := v }),
     .of "standings_interval_ms" .uint64 (·.standingsMillis)
       (fun s v => { s with standingsMillis := v }),
     .of "feeds_interval_ms" .uint64 (·.feedsMillis) (fun s v => { s with feedsMillis := v }),
     .of "min_reconnect_delay_ms" .uint64 (·.leastDelayMillis)
       (fun s v => { s with leastDelayMillis := v }),
     .of "max_reconnect_delay_ms" .uint64 (·.greatestDelayMillis)
       (fun s v => { s with greatestDelayMillis := v })]

/-- Reads the text of a settings file. -/
def load (text : String) : Except Fault Settings :=
  match record.ofText? text with
  | some s => .ok s
  | none => .error .settingsText

/-- The text of a settings file. -/
def save (s : Settings) : String := (record.codec.write s).pretty

/-- The delays between attempts to connect. -/
def backoff (s : Settings) : Backoff :=
  .ofBounds s.leastDelayMillis.toNat s.greatestDelayMillis.toNat

/-- The period that is set for a job. -/
def setPeriod (s : Settings) : Tick → UInt64
  | .progress => s.progressMillis
  | .standings => s.standingsMillis
  | .feeds => s.feedsMillis

/-- The period of a job in milliseconds; zero stands for the default. -/
def period (s : Settings) (t : Tick) : UInt64 :=
  if s.setPeriod t = 0 then defaultPeriod else s.setPeriod t

/-- The period of a job in nanoseconds. -/
def periodNanos (s : Settings) (t : Tick) : Nat := (s.period t).toNat * 1000000

end Settings

end Pitwall
