import Pitwall.Link.Pacing

/-!
# The client — from frames to the engine

The client reads one source after the other. Every frame is handed to the recorder, as long as
there is one; events go to the engine at the time they came in, and what the engine announces is
published, as is what the periodic jobs announce. A change of the protocol's version discards the
engine and the rest of the source, and the next source follows; a source that ends otherwise ends
the client.
-/

namespace Pitwall

/-- The client under way. -/
structure Client where
  engine : Engine := {}
  /-- What has been published, in order. -/
  published : List Notification := []
  /-- The frames that have been recorded, in order. -/
  recorded : List Frame := []
  /-- How many more frames the recorder takes before it is gone; none if it stays. -/
  patience : Option Nat := none

namespace Client

instance : Inhabited Client := ⟨{}⟩

/-- Hands a frame to the recorder. Once that is gone, frames are no longer recorded. -/
def record (c : Client) (f : Frame) : Client :=
  match c.patience with
  | none => { c with recorded := c.recorded ++ [f] }
  | some 0 => c
  | some (left + 1) => { c with recorded := c.recorded ++ [f], patience := some left }

/-- Takes a frame in. Tells whether it changes the version. -/
def take (c : Client) (f : Frame) : Client × Bool :=
  let c := c.record f
  match Message.decode? f.payload with
  | none => (c, false)
  | some (.versionChanged _) => (c, true)
  | some (.event e) =>
    let (engine, outcome) := c.engine.apply e f.receivedAt
    ({ c with engine, published := c.published ++ outcome.notifications }, false)

/-- Runs a periodic job, at the time of the latest event. -/
def tick (c : Client) (t : Tick) : Client :=
  let (engine, notifications) := c.engine.tick t (c.engine.lastAppliedAt.getD .zero)
  { c with engine, published := c.published ++ notifications }

/-- Meets with an arrival. Tells whether it changes the version. -/
def meet (c : Client) : Arrival → Client × Bool
  | .frame _ f => c.take f
  | .tick _ t => (c.tick t, false)

/-- Reads a source up to a change of version or to its end. Tells which of them it was. -/
def readSource (c : Client) : List Arrival → Client × Bool
  | [] => (c, false)
  | a :: rest =>
    match c.meet a with
    | (c, true) => (c, true)
    | (c, false) => c.readSource rest

/-- Reads sources one after the other until one of them ends without a change of version. -/
def readSources (c : Client) : List (List Arrival) → Client
  | [] => c
  | source :: sources =>
    match c.readSource source with
    | (c, true) => { c with engine := .initial }.readSources sources
    | (c, false) => c

/-- What becomes of a new client that reads the given sources. -/
def run (sources : List (List Arrival)) : Client := readSources {} sources

/-- What becomes of a new client that reads recordings, paced or not. -/
def replay (settings : Settings) (paced : Bool) (recordings : List (List Frame)) : Client :=
  run (recordings.map (Pacing.source settings paced))

end Client

end Pitwall
