/-!
# Binary — floating-point words and their exact arithmetic

A number of a binary format is the word that stores it: sign, exponent field and fraction.
Every finite word is a whole number of *units*, a unit being the least positive magnitude of
its format, so that rounding is one question about a quotient of natural numbers.

* **`Binary.ofRatio`** is the one place where rounding happens: the nearest word to
  `num / den` units, a half going to the even neighbour, an overflow to infinity.
* Arithmetic, conversion between formats and conversion from integers decode to units, work
  exactly and go through `ofRatio` once, which makes each of them correctly rounded.
* **`==` compares numbers** (`0` equals `-0`, and no NaN equals anything), while `=` compares
  words. **`totalOrder`** orders all words, NaNs and signed zeros included.
-/

namespace Pitwall

/-- A binary interchange format. -/
structure Format where
  /-- Bits of the significand, the hidden one included. -/
  precision : Nat
  /-- Bits of the exponent field. -/
  exponentWidth : Nat
  deriving DecidableEq

namespace Format

/-- Thirty-two bits, twenty-four of them significant. -/
def single : Format := ⟨24, 8⟩

/-- Sixty-four bits, fifty-three of them significant. -/
def double : Format := ⟨53, 11⟩

/-- Bits of a word: sign, exponent field and fraction. -/
def width (f : Format) : Nat := f.exponentWidth + f.precision

/-- The exponent field of infinities and NaNs: all ones. -/
def topExponent (f : Format) : Nat := Nat.pow 2 f.exponentWidth - 1

/-- A fraction runs below this: the hidden bit of the significand. -/
def hidden (f : Format) : Nat := Nat.pow 2 (f.precision - 1)

/-- One is `2 ^ scale` units. -/
def scale (f : Format) : Nat := Nat.pow 2 (f.exponentWidth - 1) + f.precision - 3

/-- The units that make up one. -/
def one (f : Format) : Nat := Nat.pow 2 f.scale

end Format

/-- The quotient rounded to the nearest whole number, a half to the even one. -/
def roundDiv (num den : Nat) : Nat :=
  let quotient := num / den
  let rest := num % den
  if 2 * rest < den then quotient
  else if den < 2 * rest then quotient + 1
  else quotient + quotient % 2

/-- A word of the format. -/
structure Binary (f : Format) where
  /-- Sign, exponent field and fraction, most significant bit first. -/
  bits : BitVec f.width
  deriving DecidableEq

/-- A word of single precision. -/
abbrev Binary32 := Binary .single

/-- A word of double precision. -/
abbrev Binary64 := Binary .double

namespace Binary

variable {f g : Format}

/-- What a word stands for. -/
inductive Value where
  /-- A sign and a number of units. -/
  | finite (negative : Bool) (units : Nat)
  | infinite (negative : Bool)
  /-- Not a number. -/
  | nan
  deriving DecidableEq

/-- The word with the given bits, as a natural number. -/
def ofBits (n : Nat) : Binary f := ⟨BitVec.ofNat f.width n⟩

/-- The bits, as a natural number. -/
def toBits (x : Binary f) : Nat := x.bits.toNat

/-- Whether the sign bit is set. -/
def negative (x : Binary f) : Bool := x.bits.msb

/-- The bits without the sign. Among words of one sign they ascend with the magnitude. -/
def magnitude (x : Binary f) : Nat := x.toBits % Nat.pow 2 (f.width - 1)

/-- A sign before a magnitude. -/
def pack (negative : Bool) (magnitude : Nat) : Binary f :=
  ofBits ((if negative then Nat.pow 2 (f.width - 1) else 0) + magnitude)

def exponentField (x : Binary f) : Nat := x.magnitude / f.hidden

def fraction (x : Binary f) : Nat := x.magnitude % f.hidden

/-- Units of a finite magnitude: below the first full exponent the fraction counts alone,
from there on behind the hidden bit and shifted by the exponent. -/
def units (x : Binary f) : Nat :=
  if x.exponentField = 0 then x.fraction
  else (f.hidden + x.fraction) * Nat.pow 2 (x.exponentField - 1)

def value (x : Binary f) : Value :=
  if x.exponentField < f.topExponent then .finite x.negative x.units
  else if x.fraction = 0 then .infinite x.negative
  else .nan

def zero (negative : Bool) : Binary f := pack negative 0

def infinity (negative : Bool) : Binary f := pack negative (f.topExponent * f.hidden)

/-- Not a number: all of the exponent and the first bit of the fraction. -/
def nan : Binary f := pack false (f.topExponent * f.hidden + f.hidden / 2)

instance : Inhabited (Binary f) := ⟨zero false⟩

/-- Whether a word is not a number. -/
def isNaN (x : Binary f) : Bool := x.value == .nan

/-- Whether a word is a number and no infinity. -/
def isFinite (x : Binary f) : Bool := decide (x.exponentField < f.topExponent)

/-! ## Rounding -/

/-- The word nearest to `num / den` units, a half going to the even neighbour. Digits beyond
the precision are dropped by rounding at the last kept one; since the exponent field counts
how many were dropped, a carry into the next power of two comes out right by itself. -/
def ofRatio (negative : Bool) (num den : Nat) : Binary f :=
  let dropped := (num / den).log2 + 1 - f.precision
  let significand := roundDiv num (den * Nat.pow 2 dropped)
  pack negative (min (dropped * f.hidden + significand) (f.topExponent * f.hidden))

/-- The word nearest to a whole number. -/
def ofInt (n : Int) : Binary f := ofRatio (decide (n < 0)) (n.natAbs * f.one) 1

/-- The word nearest to a natural number. -/
def ofNat (n : Nat) : Binary f := ofRatio false (n * f.one) 1

/-- The word nearest to a fraction. -/
def ofFraction (num den : Nat) : Binary f := ofRatio false (num * f.one) den

/-- The number in another format, rounded where that is narrower. -/
def convert (x : Binary f) : Binary g :=
  match x.value with
  | .finite negative units => ofRatio negative (units * g.one) f.one
  | .infinite negative => infinity negative
  | .nan => nan

/-! ## Comparing -/

/-- The units with their sign. -/
def signedUnits (negative : Bool) (units : Nat) : Int := if negative then -units else units

/-- How two numbers compare; nothing when one of them is not a number. -/
def order? (x y : Binary f) : Option Ordering :=
  match x.value, y.value with
  | .nan, _ => none
  | _, .nan => none
  | .infinite a, .infinite b => some (compare b a)
  | .infinite a, .finite _ _ => some (if a then .lt else .gt)
  | .finite _ _, .infinite b => some (if b then .gt else .lt)
  | .finite a m, .finite b n => some (compare (signedUnits a m) (signedUnits b n))

/-- Comparison of numbers: signed zeros are equal, and no NaN equals anything. -/
instance : BEq (Binary f) := ⟨fun x y => x.order? y == some .eq⟩

/-- Whether the first number is less than the second. -/
def lt (x y : Binary f) : Bool := x.order? y == some .lt

/-- The place of a word in the total order: negative words descend with the magnitude, the
others ascend. -/
def totalKey (x : Binary f) : Int := if x.negative then -(x.magnitude : Int) - 1 else x.magnitude

/-- The total order of all words: negative NaN, negative infinity, …, `-0`, `0`, …, infinity,
NaN. -/
def totalOrder (x y : Binary f) : Ordering := compare x.totalKey y.totalKey

/-- The greater of two numbers, `0` being greater than `-0`; the other one where one of them is
not a number. -/
def max (x y : Binary f) : Binary f :=
  if x.isNaN then y
  else if y.isNaN then x
  else if x.totalOrder y == .lt then y else x

/-! ## Arithmetic -/

/-- The sum, correctly rounded. An exact zero is negative only when both terms are. -/
def add (x y : Binary f) : Binary f :=
  match x.value, y.value with
  | .nan, _ => nan
  | _, .nan => nan
  | .infinite a, .infinite b => if a = b then infinity a else nan
  | .infinite a, .finite _ _ => infinity a
  | .finite _ _, .infinite b => infinity b
  | .finite a m, .finite b n =>
    let sum := signedUnits a m + signedUnits b n
    if sum = 0 then zero (a && b) else ofRatio (decide (sum < 0)) sum.natAbs 1

/-- The product, correctly rounded. -/
def mul (x y : Binary f) : Binary f :=
  match x.value, y.value with
  | .nan, _ => nan
  | _, .nan => nan
  | .infinite a, .infinite b => infinity (a != b)
  | .infinite a, .finite b n => if n = 0 then nan else infinity (a != b)
  | .finite a m, .infinite b => if m = 0 then nan else infinity (a != b)
  | .finite a m, .finite b n => ofRatio (a != b) (m * n) f.one

/-- The quotient, correctly rounded. -/
def div (x y : Binary f) : Binary f :=
  match x.value, y.value with
  | .nan, _ => nan
  | _, .nan => nan
  | .infinite _, .infinite _ => nan
  | .infinite a, .finite b _ => infinity (a != b)
  | .finite a _, .infinite b => zero (a != b)
  | .finite a m, .finite b n =>
    if n = 0 then if m = 0 then nan else infinity (a != b)
    else ofRatio (a != b) (m * f.one) n

instance : Add (Binary f) := ⟨add⟩
instance : Mul (Binary f) := ⟨mul⟩
instance : Div (Binary f) := ⟨div⟩

/-- The square root, correctly rounded. The root of the units is cut to a whole number that is
far longer than the precision, and a half added where it was cut keeps it off every tie. -/
def sqrt (x : Binary f) : Binary f :=
  match x.value with
  | .nan => nan
  | .infinite negative => if negative then nan else infinity false
  | .finite negative units =>
    if units = 0 then zero negative
    else if negative then nan
    else
      let square := units * f.one
      let root := Nat.sqrt square
      ofRatio false (2 * root + (if root * root = square then 0 else 1)) 2

/-- The greatest whole number that is not above; a zero keeps its sign. -/
def floor (x : Binary f) : Binary f :=
  match x.value with
  | .finite negative units =>
    let whole := if negative then (units + f.one - 1) / f.one else units / f.one
    ofRatio negative (whole * f.one) 1
  | _ => x

end Binary

end Pitwall
