import Pitwall.Event.Envelope
import Pitwall.Link.Fault

/-!
# Recordings — messages with the time they came in

A `Frame` is the text of a message with its time. A recording holds one frame a line. A change
of the protocol's version ends a *run*: what comes after it belongs to a fresh start.
-/

namespace Pitwall

/-- A message with the time it came in. -/
structure Frame where
  receivedAt : Instant
  payload : String
  deriving DecidableEq

namespace Frame

instance : Inhabited Frame := ⟨⟨.zero, ""⟩⟩

/-- The fields on file; neither may be missing. -/
def record : Record Frame where
  start := default
  fields :=
    [(Field.of "received_at" .instant (·.receivedAt)
       (fun f v => { f with receivedAt := v })).needed,
     (Field.of "payload" .string (·.payload) (fun f v => { f with payload := v })).needed]

/-- The frame as a line, without its end. -/
def line (f : Frame) : List Char := (record.codec.write f).chars

/-- Whether the message announces another version of the protocol. -/
def changesVersion (f : Frame) : Bool :=
  match Message.decode? f.payload with
  | some (.versionChanged _) => true
  | _ => false

end Frame

namespace Recording

/-- The text of a recording: every frame ends its line. -/
def chars (frames : List Frame) : List Char := frames.flatMap (fun f => f.line ++ ['\n'])

/-- The text of a recording: every frame ends its line. -/
def text (frames : List Frame) : String := String.ofList (chars frames)

/-- The lines of a text; an end of line at its very end begins no further line. -/
def lines (cs : List Char) : List (List Char) :=
  let pieces := Text.splitAt (· == '\n') cs
  if pieces.getLast? = some [] then pieces.dropLast else pieces

/-- Reads the text of a recording. Every line has to hold a frame. -/
def load (text : String) : Except Fault (List Frame) :=
  match (lines text.toList).mapM (fun l => Frame.record.ofText? (String.ofList l)) with
  | some frames => .ok frames
  | none => .error .recordingNotRead

/-- Cuts frames into runs; `run` are the frames of the run under way, latest first. Every run
but the last ends with a change of version. -/
def runsFrom (run : List Frame) : List Frame → List (List Frame)
  | [] => if run.isEmpty then [] else [run.reverse]
  | f :: fs =>
    if f.changesVersion then (f :: run).reverse :: runsFrom [] fs else runsFrom (f :: run) fs

/-- Cuts frames into the runs between changes of version. -/
def runs (frames : List Frame) : List (List Frame) := runsFrom [] frames

end Recording

end Pitwall
