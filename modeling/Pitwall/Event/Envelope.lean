import Pitwall.Event.Basic

/-!
# Envelopes — messages as text

A message is an object with the code of its kind and a payload. **`Message.decode?`** reads the
text of a message; a text that is no envelope, a code that no kind has and a payload that does
not fit the kind all yield nothing, so that a listener can skip them.
-/

namespace Pitwall

/-- A message before its payload is understood. -/
structure Envelope where
  code : UInt16
  payload : Json

namespace Envelope

instance : Inhabited Envelope := ⟨⟨0, .null⟩⟩

/-- The fields on the wire. The code may not be missing; a missing payload counts as `null`. -/
def record : Record Envelope where
  start := default
  fields :=
    [(Field.of "EventType" .uint16 (·.code) (fun e v => { e with code := v })).needed,
     .of "Message" .json (·.payload) (fun e v => { e with payload := v })]

end Envelope

/-- What a message says. -/
inductive Message where
  /-- The server speaks another version of the protocol from now on, and all that is known is
  void. -/
  | versionChanged (version : UInt16)
  | event (e : Event)

namespace Message

/-- A payload as text: strings as they are, `null` as the given text, all else in its compact
form. -/
def payloadText (onNull : String) : Json → String
  | .null => onNull
  | .str s => s
  | j => j.compact

/-- A collision from its payload. Who hits no car has no other car. -/
def collision? (impact : Impact) (payload : Json) : Option Event :=
  (CollisionReport.record.codec.read payload).map (fun c =>
    match impact with
    | .car => .collision { c with impact }
    | .environment => .collision { c with impact, otherCarId := none })

/-- The message of a kind with a payload. -/
def ofPayload? (payload : Json) : Tag → Option Message
  | .version => (Codec.uint16.read payload).map .versionChanged
  | .raceControl => (Snapshot.record.codec.read payload).map (.event ∘ .snapshot)
  | .newSession => (SessionInfo.record.codec.read payload).map (.event ∘ .newSession)
  | .sessionInfo => (SessionInfo.record.codec.read payload).map (.event ∘ .sessionInfo)
  | .endSession => some (.event (.endSession (payloadText "" payload)))
  | .newConnection => (CarInfo.record.codec.read payload).map (.event ∘ .newConnection)
  | .connectionClosed => (CarInfo.record.codec.read payload).map (.event ∘ .connectionClosed)
  | .clientLoaded => (Codec.uint32.read payload).map (.event ∘ .clientLoaded)
  | .carUpdate => (Telemetry.record.codec.read payload).map (.event ∘ .carUpdate)
  | .collisionWithCar => (collision? .car payload).map .event
  | .collisionWithEnvironment => (collision? .environment payload).map .event
  | .lapCompleted => (LapReport.record.codec.read payload).map (.event ∘ .lapCompleted)
  | .splitCompleted => (SplitReport.record.codec.read payload).map (.event ∘ .splitCompleted)
  | .tyresChanged => (CarInfo.record.codec.read payload).map (.event ∘ .tyresChanged)
  | .chat => (ChatMessage.record.codec.read payload).map (.event ∘ .chat)
  | .error => some (.event (.serverError (payloadText "null" payload)))
  | .carInfo => some (.event (.ignored .carInfo))
  | .clientEvent => some (.event (.ignored .clientEvent))

/-- The message that an envelope holds. -/
def ofEnvelope? (e : Envelope) : Option Message :=
  (Tag.ofCode? e.code).bind (ofPayload? e.payload)

/-- Reads the text of a message. -/
def decode? (text : String) : Option Message := Envelope.record.ofText? text >>= ofEnvelope?

end Message

end Pitwall
