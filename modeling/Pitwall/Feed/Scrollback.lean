import Pitwall.Driver.Guid
import Pitwall.Wire.Record

/-!
# Scrollback — the latest chat messages

A `Scrollback` holds the latest messages up to its capacity, oldest first. Pushing onto a full
one gives up the oldest message and returns it, so that nothing disappears unnoticed.
-/

namespace Pitwall

structure ChatMessage where
  /-- The place on the server of the one who writes. -/
  carId : CarId := 0
  /-- Who writes. -/
  guid : Guid := default
  /-- The name of the one who writes. -/
  driverName : String := ""
  /-- When it was written. -/
  time : Instant := .zero
  /-- What is written. -/
  text : String := ""
  deriving DecidableEq

namespace ChatMessage

instance : Inhabited ChatMessage := ⟨{}⟩

def record : Record ChatMessage where
  start := {}
  fields :=
    [.of "CarID" .uint32 (·.carId) (fun m v => { m with carId := v }),
     .of "DriverGUID" Guid.codec (·.guid) (fun m v => { m with guid := v }),
     .of "DriverName" .string (·.driverName) (fun m v => { m with driverName := v }),
     .of "Time" .instant (·.time) (fun m v => { m with time := v }),
     .of "Message" .string (·.text) (fun m v => { m with text := v })]

end ChatMessage

/-- The latest messages. -/
structure Scrollback where
  /-- How many messages are held at most. -/
  capacity : Nat
  /-- The messages, oldest first. -/
  messages : List ChatMessage
  /-- No more messages than the capacity. -/
  bounded : messages.length ≤ capacity
  deriving DecidableEq

namespace Scrollback

/-- Messages that are kept of a session. -/
def defaultCapacity : Nat := 50

/-- No messages yet. -/
def ofCapacity (capacity : Nat) : Scrollback := ⟨capacity, [], Nat.zero_le _⟩

instance : Inhabited Scrollback := ⟨ofCapacity defaultCapacity⟩

/-- Appends a message. Beyond the capacity the oldest one is given up and returned. -/
def push (s : Scrollback) (m : ChatMessage) : Scrollback × Option ChatMessage :=
  if h : s.messages.length < s.capacity then
    ({ s with messages := s.messages ++ [m], bounded := by rw [List.length_append]; exact h }, none)
  else
    ({ s with
       messages := (s.messages ++ [m]).tail
       bounded := by simpa using s.bounded },
     (s.messages ++ [m]).head?)

def size (s : Scrollback) : Nat := s.messages.length

/-- Whether there are no messages. -/
def isEmpty (s : Scrollback) : Bool := s.messages.isEmpty

/-- The latest message. -/
def newest? (s : Scrollback) : Option ChatMessage := s.messages.getLast?

end Scrollback

end Pitwall
