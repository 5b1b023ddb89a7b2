import Pitwall.Driver.Guid
import Pitwall.Wire.Record

/-!
# Cars — who sits in which car, and where it is

What the server announces about a car when its driver connects, leaves or changes tyres, and
points in space.
-/

namespace Pitwall

/-- A point or a velocity in space. -/
structure Coords where
  /-- Along the first axis of the ground. -/
  x : Binary32 := default
  /-- Height. -/
  y : Binary32 := default
  /-- Along the second axis of the ground. -/
  z : Binary32 := default
  deriving DecidableEq, BEq

namespace Coords

instance : Inhabited Coords := ⟨{}⟩

/-- The fields on the wire. -/
def record : Record Coords where
  start := {}
  fields :=
    [.of "X" .single (·.x) (fun v x => { v with x := x }),
     .of "Y" .single (·.y) (fun v y => { v with y := y }),
     .of "Z" .single (·.z) (fun v z => { v with z := z })]

end Coords

/-- A driver's car as the server announces it. -/
structure CarInfo where
  /-- The place on the server. -/
  carId : CarId := 0
  driverName : String := ""
  guid : Guid := default
  model : String := ""
  skin : String := ""
  tyres : String := ""
  initials : String := ""
  /-- The name of the car for display; may be missing. -/
  carName : String := ""
  deriving DecidableEq, BEq

namespace CarInfo

instance : Inhabited CarInfo := ⟨{}⟩

def record : Record CarInfo where
  start := {}
  fields :=
    [.of "CarID" .uint32 (·.carId) (fun c v => { c with carId := v }),
     .of "DriverName" .string (·.driverName) (fun c v => { c with driverName := v }),
     .of "DriverGUID" Guid.codec (·.guid) (fun c v => { c with guid := v }),
     .of "CarModel" .string (·.model) (fun c v => { c with model := v }),
     .of "CarSkin" .string (·.skin) (fun c v => { c with skin := v }),
     .of "Tyres" .string (·.tyres) (fun c v => { c with tyres := v }),
     .of "DriverInitials" .string (·.initials) (fun c v => { c with initials := v }),
     .of "CarName" .string (·.carName) (fun c v => { c with carName := v })]

end CarInfo

end Pitwall
