import Pitwall.Text.Blank
import Pitwall.Text.Digits
import Pitwall.Time.Instant

/-!
# Timestamps — instants as text

Timestamps follow RFC 3339, and reading is generous with white space, digits and zones. The
text is cut into its fields first (**`Stamp.read?`**), which then have to make an instant
(**`Stamp.instant?`**): existing date, time of day, offset below a day, and a result within
the calendar both in local time and in universal time.

Writing (**`Instant.text`**) is in universal time with the shortest fraction of 0, 3, 6 or 9
digits that is exact.
-/

namespace Pitwall

open Text

/-- The fields of a timestamp as written. -/
structure Stamp where
  date : Date
  hour : Nat
  /-- Minutes of the hour. -/
  minute : Nat
  /-- Seconds of the minute; 60 is a leap second. -/
  second : Nat
  /-- Nanoseconds of the second. -/
  nano : Nat
  /-- Seconds by which local time is ahead. -/
  offset : Int

namespace Stamp

/-- A number after white space. -/
def number? (most : Nat) (cs : List Char) : Option (Nat × List Char) :=
  readDigits? most (trimStart cs)

/-- Skips white space and then the given mark. -/
def skip? (mark : Char) (cs : List Char) : Option (List Char) :=
  match trimStart cs with
  | [] => none
  | c :: rest => if c = mark then some rest else none

/-- A year: four digits at most, or any number of them behind a sign. -/
def year? (cs : List Char) : Option (Int × List Char) :=
  match trimStart cs with
  | '-' :: rest => (readDigits? rest.length rest).map (fun (n, rest) => (-(n : Int), rest))
  | '+' :: rest => (readDigits? rest.length rest).map (fun (n, rest) => ((n : Int), rest))
  | rest => (readDigits? 4 rest).map (fun (n, rest) => ((n : Int), rest))

/-- The character between day and time. -/
def separator? : List Char → Option (List Char)
  | 'T' :: rest => some rest
  | 't' :: rest => some rest
  | ' ' :: rest => some rest
  | _ => none

/-- A fraction behind a point in nanoseconds, or nothing. Digits after the ninth are cut off. -/
def fraction? : List Char → Option (Nat × List Char)
  | '.' :: rest =>
    let ds := rest.takeWhile Char.isDigit
    if ds.isEmpty then none
    else some (digitsValue (ds.take 9) * Nat.pow 10 (9 - ds.length), rest.drop ds.length)
  | rest => some (0, rest)

/-- Exactly two digits. -/
def twoDigits? : List Char → Option (Nat × List Char)
  | a :: b :: rest =>
    if a.isDigit ∧ b.isDigit then some (digitsValue [a, b], rest) else none
  | _ => none

/-- Hours and minutes of an offset in seconds; colons and white space may stand between. -/
def offset? (cs : List Char) : Option (Int × List Char) := do
  let (hours, rest) ← twoDigits? cs
  let (minutes, rest) ← twoDigits? (rest.dropWhile (fun c => c == ':' || isBlank c))
  if minutes < 60 then some ((hours * 3600 + minutes * 60 : Nat), rest) else none

/-- A zone: `Z`, `UTC`, or a sign with an offset. -/
def zone? : List Char → Option (Int × List Char)
  | 'Z' :: rest => some (0, rest)
  | 'z' :: rest => some (0, rest)
  | '+' :: rest => offset? rest
  | '-' :: rest => (offset? rest).map (fun (o, rest) => (-o, rest))
  | '\u2212' :: rest => (offset? rest).map (fun (o, rest) => (-o, rest))
  | u :: t :: c :: rest =>
    if [u.toUpper, t.toUpper, c.toUpper] = ['U', 'T', 'C'] then some (0, rest) else none
  | _ => none

/-- Cuts a text into the fields of a timestamp; only white space may follow them. -/
def read? (cs : List Char) : Option Stamp := do
  let (year, cs) ← year? cs
  let (month, cs) ← number? 2 (← skip? '-' cs)
  let (day, cs) ← number? 2 (← skip? '-' cs)
  let (hour, cs) ← number? 2 (← separator? cs)
  let (minute, cs) ← number? 2 (← skip? ':' cs)
  let (second, cs) ← number? 2 (← skip? ':' cs)
  let (nano, cs) ← fraction? cs
  let (offset, cs) ← zone? (trimStart cs)
  if (trimStart cs).isEmpty then some ⟨⟨year, month, day⟩, hour, minute, second, nano, offset⟩
  else none

/-- Whether the fields are in range, each for itself. -/
def inRange (s : Stamp) : Bool :=
  s.date.exists? && decide (s.hour < 24) && decide (s.minute < 60) && decide (s.second ≤ 60) &&
    decide (s.offset.natAbs < 86400)

/-- The second of the fields in local time; a leap second counts as second 59. -/
def localSecond (s : Stamp) : Int :=
  s.date.dayNumber * secondsPerDay + (s.hour * 3600 + s.minute * 60 + min s.second 59 : Nat)

/-- The nanoseconds of the fields; a leap second adds a whole second. -/
def nanos (s : Stamp) : Nat := s.nano + if s.second = 60 then nanosPerSecond else 0

/-- The instant that the fields name. -/
def instant? (s : Stamp) : Option Instant :=
  let second := s.localSecond - s.offset
  if !s.inRange || s.localSecond < firstSecond || lastSecond < s.localSecond then none
  else if h : firstSecond ≤ second ∧ second ≤ lastSecond ∧ s.nanos < 2 * nanosPerSecond ∧
      (nanosPerSecond ≤ s.nanos → second % 60 = 59) then
    some ⟨second, s.nanos, h.1, h.2.1, h.2.2.1, h.2.2.2⟩
  else none

end Stamp

namespace Instant

def read? (s : String) : Option Instant := Stamp.read? s.toList >>= Stamp.instant?

/-- A year: four digits, with a sign where it has to be told apart from others. -/
def yearText (year : Int) : List Char :=
  if 0 ≤ year ∧ year ≤ 9999 then padded 4 year.natAbs
  else (if year < 0 then '-' else '+') :: padded 4 year.natAbs

/-- The shortest fraction of 0, 3, 6 or 9 digits that is exact. -/
def fractionText (nano : Nat) : List Char :=
  if nano = 0 then []
  else if nano % 1000000 = 0 then '.' :: padded 3 (nano / 1000000)
  else if nano % 1000 = 0 then '.' :: padded 6 (nano / 1000)
  else '.' :: padded 9 nano

/-- The timestamp of an instant, in universal time. -/
def chars (t : Instant) : List Char :=
  let date := Date.ofDayNumber (t.second / secondsPerDay)
  let time := t.secondOfDay.toNat
  let second := time % 60 + if t.isLeap then 1 else 0
  yearText date.year ++ '-' :: padded 2 date.month ++ '-' :: padded 2 date.day ++
    'T' :: padded 2 (time / 3600) ++ ':' :: padded 2 (time / 60 % 60) ++
    ':' :: padded 2 second ++ fractionText (t.nano % nanosPerSecond) ++ ['Z']

/-- The timestamp of an instant, in universal time. -/
def text (t : Instant) : String := String.ofList t.chars

end Instant

end Pitwall
