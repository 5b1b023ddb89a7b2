import Pitwall.Numeric.Shortest

/-!
# Speeds

Speeds are km/h throughout and are converted where they are shown. Miles per hour are reached
through metres per second, each step rounded: first times the metres per second of a km/h, then
times the miles per hour of a metre per second.
-/

namespace Pitwall

/-- The unit that speeds are shown in. -/
inductive SpeedUnit where
  /-- Kilometres per hour. -/
  | kmh
  /-- Miles per hour. -/
  | mph
  deriving DecidableEq

namespace SpeedUnit

instance : Inhabited SpeedUnit := ⟨.kmh⟩

/-- The unit for those who do or do not want miles. -/
def ofUseMph (useMph : Bool) : SpeedUnit := if useMph then .mph else .kmh

/-- The metres per second of one km/h, to sixteen digits. -/
def metresPerSecondOfKmh : Binary64 := .ofFraction 2777777777777778 10000000000000000

/-- The metres per second of one mile per hour. -/
def metresPerSecondOfMph : Binary64 := .ofFraction 44704 100000

/-- A speed in km/h in this unit. -/
def convert : SpeedUnit → Binary64 → Binary64
  | .kmh, v => v
  | .mph, v => v * metresPerSecondOfKmh * (.ofNat 1 / metresPerSecondOfMph)

def label : SpeedUnit → String
  | .kmh => "km/h"
  | .mph => "mph"

/-- A speed in km/h, rounded and with its unit. -/
def text (u : SpeedUnit) (v : Binary64) : String :=
  String.ofList (u.convert v).wholeText ++ " " ++ u.label

end SpeedUnit

end Pitwall
