import Pitwall.Display.View
import Pitwall.Link.Client
import Pitwall.Text.Columns

/-!
# Commentary — the lines that tell what a client meets

What a client publishes is told in lines of text: the track, the weather, the standings, chat,
crashes, the end of the session and errors of the server. Everything else is passed over. The
engine is seen at the time of its latest event.

**`Commentary.ofSources`** is the commentary on a whole recording, each line with its time.
-/

namespace Pitwall

namespace Commentary

/-- A line of the standings in columns. -/
def row (r : Placing) : String :=
  String.intercalate " "
    [Text.flushRight 3 (String.ofList (Text.decimal r.rank)),
     Text.flushLeft 24 r.driverName,
     Text.flushLeft 20 r.carName,
     Text.flushRight 4 (String.ofList (Text.decimal r.totalLaps.toNat)),
     Text.flushRight 10 r.lastLap,
     Text.flushRight 10 r.bestLap,
     Text.flushRight 4 r.tyres,
     r.gap]

def weather (v : View) : String :=
  let (ambient, road) := v.temperatures
  "Weather: " ++ v.weather ++ ", ambient " ++ String.ofList (Text.decimal ambient.toNat) ++
    "°C, road " ++ String.ofList (Text.decimal road.toNat) ++ "°C"

def lines (v : View) : Notification → List String
  | .trackChanged .. => ["== " ++ v.title ++ " (" ++ v.location ++ ") =="]
  | .weatherChanged _ => [weather v]
  | .standingsChanged => ("-- " ++ v.progress.text ++ " --") :: v.standings.map row
  | .chatReceived =>
    (v.chat.getLast?.map (fun m => "[chat] " ++ m.driverName ++ ": " ++ m.text)).toList
  | .collisionRecorded _ =>
    (v.collisions.getLast?.map (fun c =>
      "[crash] " ++ c.driverName ++ " " ++ c.speed ++ ": " ++ c.title)).toList
  | .sessionEnded file => ["Session over, results in " ++ file]
  | .serverError text => ["Server error: " ++ text]
  | _ => []

/-- The lines on what a client has published from one state to a later one. -/
def between (unit : SpeedUnit) (before after : Client) : List String :=
  let v : View := ⟨after.engine, unit, after.engine.lastAppliedAt.getD .zero⟩
  (after.published.drop before.published.length).flatMap (lines v)

/-- The lines on a source, each with its time. -/
def ofSource (unit : SpeedUnit) (c : Client) : List Arrival → List (Nat × String)
  | [] => []
  | a :: rest =>
    let (after, restarts) := c.meet a
    (between unit c after).map (fun line => (a.time, line)) ++
      (if restarts then [] else ofSource unit after rest)

/-- The lines on the sources that a client reads one after the other. -/
def ofSources (unit : SpeedUnit) (c : Client) : List (List Arrival) → List (List (Nat × String))
  | [] => []
  | source :: sources =>
    ofSource unit c source ::
      match c.readSource source with
      | (after, true) => ofSources unit { after with engine := .initial } sources
      | (_, false) => []

end Commentary

end Pitwall
