import Pitwall.Driver.Car

/-!
# Markers — where a driver is drawn on the map

A marker shows the last telemetry of a connected driver. It becomes active once the driver has
finished loading; inactive markers are not drawn.
-/

namespace Pitwall

structure Marker where
  guid : Guid := default
  initials : String := ""
  /-- Whether the marker is drawn. -/
  active : Bool := false
  position : Coords := {}
  /-- The speed in km/h. -/
  speed : Binary64 := default
  /-- The gear as displayed: 0 is neutral, -1 is reverse. -/
  gear : Int32 := 0
  /-- Revolutions of the engine per minute. -/
  rpm : UInt16 := 0
  /-- The highest revolutions seen. -/
  maxRpm : UInt16 := 0
  /-- The angle of the steering wheel. -/
  steerAngle : UInt8 := 0
  deriving DecidableEq, BEq

namespace Marker

instance : Inhabited Marker := ⟨{}⟩

/-- The marker of a driver who has just connected. -/
def ofCar (car : CarInfo) : Marker := { guid := car.guid, initials := car.initials }

/-- The revolutions as a fraction of the highest ones seen; 0 when none have been seen. -/
def rpmShare (m : Marker) : Binary32 :=
  if m.maxRpm = 0 then default else .ofNat m.rpm.toNat / .ofNat m.maxRpm.toNat

/-- The marker with the telemetry of an earlier one, which snapshots do not carry. -/
def withTelemetryOf (m earlier : Marker) : Marker :=
  { m with
    speed := earlier.speed
    gear := earlier.gear
    rpm := earlier.rpm
    maxRpm := earlier.maxRpm }

end Marker

end Pitwall
