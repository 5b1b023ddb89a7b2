import Pitwall.Driver.Car

/-!
# Collisions — what a driver hit, when and how hard
-/

namespace Pitwall

/-- What a car hit. -/
inductive Impact where
  | car
  | environment
  deriving DecidableEq

namespace Impact

instance : Inhabited Impact := ⟨.car⟩

/-- The text of an impact, on the wire and for display. -/
def text : Impact → String
  | .car => "with other car"
  | .environment => "with environment"

def codec : Codec Impact :=
  .oneOf [(text .car, .car), (text .environment, .environment)] text

end Impact

/-- How badly the zones of a car are damaged. -/
structure Damage where
  front : Binary32 := default
  rear : Binary32 := default
  left : Binary32 := default
  right : Binary32 := default
  deriving DecidableEq, BEq

namespace Damage

instance : Inhabited Damage := ⟨{}⟩

/-- Damage from a list of severities: the first four count, missing ones are zero. -/
def ofList (severities : List Binary32) : Damage :=
  ⟨severities.getD 0 default, severities.getD 1 default, severities.getD 2 default,
    severities.getD 3 default⟩

/-- The severities of the four zones. -/
def toList (d : Damage) : List Binary32 := [d.front, d.rear, d.left, d.right]

/-- Damage is an array on the wire. -/
def codec : Codec Damage := (Codec.list .single).map ofList toList

end Damage

/-- A collision in the history of a driver. -/
structure Collision where
  /-- The number of the collision among those of the driver. -/
  id : UInt32 := 0
  impact : Impact := .car
  time : Instant := .zero
  /-- The other driver, if known. -/
  otherGuid : Option Guid := none
  /-- The name of the other driver, if known. -/
  otherName : Option String := none
  /-- The speed of the impact in km/h. -/
  speed : Binary64 := default
  damage : Damage := {}
  deriving DecidableEq, BEq

namespace Collision

instance : Inhabited Collision := ⟨{}⟩

def record : Record Collision where
  start := {}
  fields :=
    [.of "ID" .uint32 (·.id) (fun c v => { c with id := v }),
     .of "Type" Impact.codec (·.impact) (fun c v => { c with impact := v }),
     .of "Time" .instant (·.time) (fun c v => { c with time := v }),
     .of "OtherDriverGUID" (.option Guid.codec) (·.otherGuid)
       (fun c v => { c with otherGuid := v }),
     .of "OtherDriverName" (.option .string) (·.otherName)
       (fun c v => { c with otherName := v }),
     .of "Speed" .double (·.speed) (fun c v => { c with speed := v }),
     .of "DamageZones" Damage.codec (·.damage) (fun c v => { c with damage := v })]

end Collision

end Pitwall
