/-!
# Tags — the kinds of messages and their codes

Every message of race control carries the code of its kind. Codes that no kind has are
unknown; `ofCode?` and `code` are inverse to each other on the rest.
-/

namespace Pitwall

/-- The kind of a message. -/
inductive Tag where
  | collisionWithCar
  | collisionWithEnvironment
  | newSession
  | newConnection
  | connectionClosed
  | carUpdate
  | carInfo
  | endSession
  | version
  | chat
  | clientLoaded
  | sessionInfo
  | error
  | lapCompleted
  | splitCompleted
  | tyresChanged
  | clientEvent
  | raceControl
  deriving DecidableEq

namespace Tag

instance : Inhabited Tag := ⟨.version⟩

def code : Tag → UInt16
  | .collisionWithCar => 10
  | .collisionWithEnvironment => 11
  | .newSession => 50
  | .newConnection => 51
  | .connectionClosed => 52
  | .carUpdate => 53
  | .carInfo => 54
  | .endSession => 55
  | .version => 56
  | .chat => 57
  | .clientLoaded => 58
  | .sessionInfo => 59
  | .error => 60
  | .lapCompleted => 73
  | .splitCompleted => 100
  | .tyresChanged => 101
  | .clientEvent => 130
  | .raceControl => 200

/-- All kinds, by code. -/
def all : List Tag :=
  [.collisionWithCar, .collisionWithEnvironment, .newSession, .newConnection,
   .connectionClosed, .carUpdate, .carInfo, .endSession, .version, .chat, .clientLoaded,
   .sessionInfo, .error, .lapCompleted, .splitCompleted, .tyresChanged, .clientEvent,
   .raceControl]

def ofCode? (code : UInt16) : Option Tag := all.find? (fun t => t.code == code)

theorem ofCode?_code (t : Tag) : ofCode? t.code = some t := by cases t <;> rfl

theorem code_of_ofCode? {code : UInt16} {t : Tag} (h : ofCode? code = some t) :
    t.code = code := by
  have := List.find?_some h
  simpa using this

end Tag

end Pitwall
