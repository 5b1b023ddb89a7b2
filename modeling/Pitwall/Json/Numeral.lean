import Pitwall.Json.Basic

/-!
# Numerals — numbers as they are written

**`Numeral.read?`** is the grammar of JSON numbers: no leading zeros, digits on both sides of a
point, digits behind an exponent mark. **`Numeral.number?`** is what a numeral stands for:

* without point and exponent a whole number as long as it fits into 64 bits;
* else a double. Its significand takes in digits as long as they fit into 64 bits and is then
  scaled by the power of ten, each step rounded. A number too large for a double has no value.
-/

namespace Pitwall.Json

open Text

/-- The parts of a number as written. -/
structure Numeral where
  /-- Whether a minus sign leads. -/
  negative : Bool
  whole : List Char
  fraction : Option (List Char)
  exponent : Option Int

namespace Numeral

/-- Reads what stands behind an exponent mark. -/
def exponent? (cs : List Char) : Option Int :=
  let (negative, digits) :=
    match cs with
    | '-' :: rest => (true, rest)
    | '+' :: rest => (false, rest)
    | rest => (false, rest)
  if digits.isEmpty || !digits.all Char.isDigit then none
  else some (if negative then -(digitsValue digits : Int) else digitsValue digits)

/-- Reads what stands behind the digits before the point. -/
def tail? (negative : Bool) (whole : List Char) (fraction : Option (List Char)) :
    List Char → Option Numeral
  | [] => some ⟨negative, whole, fraction, none⟩
  | mark :: rest =>
    if mark = 'e' ∨ mark = 'E' then
      (exponent? rest).map (fun e => ⟨negative, whole, fraction, some e⟩)
    else none

/-- Reads a number without its sign. -/
def unsigned? (negative : Bool) (cs : List Char) : Option Numeral :=
  let whole := cs.takeWhile Char.isDigit
  if whole.isEmpty || (whole.head? == some '0' && decide (1 < whole.length)) then none
  else
    match cs.dropWhile Char.isDigit with
    | '.' :: rest =>
      let digits := rest.takeWhile Char.isDigit
      if digits.isEmpty then none
      else tail? negative whole (some digits) (rest.dropWhile Char.isDigit)
    | rest => tail? negative whole none rest

/-- Reads a number; nothing may follow it. -/
def read? : List Char → Option Numeral
  | '-' :: rest => unsigned? true rest
  | cs => unsigned? false cs

/-- Whole numbers are kept in this many values. -/
def wordLimit : Nat := 18446744073709551616

/-- Digits taken into a significand. -/
structure Significand where
  value : Nat
  /-- Digits before the point that no longer fit. -/
  dropped : Nat
  /-- Digits behind the point that were taken in. -/
  places : Nat
  /-- Whether a digit behind the point no longer fitted. -/
  full : Bool

/-- Takes in a digit before the point; once one does not fit, all further ones are dropped. -/
def Significand.addWhole (s : Significand) (digit : Char) : Significand :=
  let value := 10 * s.value + digitsValue [digit]
  if 0 < s.dropped ∨ wordLimit ≤ value then { s with dropped := s.dropped + 1 }
  else { s with value := value }

/-- Takes in a digit behind the point; once one does not fit, all further ones are ignored. -/
def Significand.addPlace (s : Significand) (digit : Char) : Significand :=
  let value := 10 * s.value + digitsValue [digit]
  if s.full ∨ wordLimit ≤ value then { s with full := true }
  else { s with value := value, places := s.places + 1 }

/-- The digits of a number as far as they fit. -/
def significand (n : Numeral) : Significand :=
  (n.fraction.getD []).foldl .addPlace (n.whole.foldl .addWhole ⟨0, 0, 0, false⟩)

/-- A power of ten as a double. -/
def powerOfTen (exponent : Nat) : Binary64 := .ofNat (Nat.pow 10 exponent)

/-- A significand scaled by a power of ten. Powers up to `1e308` are doubles and scale at once;
below, the scaling goes in two steps, and what lies further down vanishes. -/
def scale? (significand : Nat) (exponent : Int) : Option Binary64 :=
  let x : Binary64 := .ofNat significand
  if 0 ≤ exponent then
    if significand = 0 then some x
    else if 308 < exponent then none
    else
      let scaled := x * powerOfTen exponent.toNat
      if scaled.isFinite then some scaled else none
  else if -308 ≤ exponent then some (x / powerOfTen (-exponent).toNat)
  else if -616 ≤ exponent then some (x / powerOfTen 308 / powerOfTen (-exponent - 308).toNat)
  else some (.zero false)

/-- The sign put before a double that has none. -/
def withSign (negative : Bool) (x : Binary64) : Binary64 :=
  if negative then .pack true x.magnitude else x

/-- What the numeral stands for; nothing when it is too large. -/
def number? (n : Numeral) : Option Number :=
  let s := n.significand
  if n.fraction.isNone && n.exponent.isNone && s.dropped == 0 &&
      (!n.negative || (decide (0 < s.value) && decide (s.value ≤ 9223372036854775808))) then
    some (.int (if n.negative then -(s.value : Int) else s.value))
  else
    (scale? s.value (s.dropped - s.places + n.exponent.getD 0)).map
      (fun x => .float (withSign n.negative x))

end Numeral

end Pitwall.Json
