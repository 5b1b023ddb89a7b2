import Pitwall.Text.Digits

/-!
# Lap times as text

A lap time is shown as minutes, seconds and milliseconds; what lies below a millisecond is cut
off, and a time that was not set is not shown.
-/

namespace Pitwall

/-- A lap time in nanoseconds as `m:ss.mmm`; empty when none was set. -/
def lapTimeChars (nanos : Int) : List Char :=
  if nanos ≤ 0 then []
  else
    let millis := (nanos / 1000000).toNat
    Text.decimal (millis / 60000) ++ ':' :: Text.padded 2 (millis / 1000 % 60) ++
      '.' :: Text.padded 3 (millis % 1000)

/-- A lap time in nanoseconds as `m:ss.mmm`; empty when none was set. -/
def lapTimeText (nanos : Int) : String := String.ofList (lapTimeChars nanos)

end Pitwall
