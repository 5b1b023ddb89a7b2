import Pitwall.Numeric.Binary

/-!
# Shortest — the fewest decimal digits that read back

A double stands for all reals that round to it. **`shortest`** finds the coarsest decimal grid
that has a point among them and takes the grid's nearest point, so that no shorter decimal
reads back as the same number and no other one of that length is nearer.

**`DecimalStyle.text`** writes such a decimal. How it is written (where positional notation ends,
whether a whole number keeps a fraction, how an exponent is signed) is a record, so that the
search and the spelling stay apart.
-/

namespace Pitwall

/-- The number `digits · 10 ^ exponent`. -/
structure Decimal where
  /-- The digits, as a whole number. -/
  digits : Nat
  /-- The place of the last digit. -/
  exponent : Int
  deriving DecidableEq

namespace Binary

/-- The reals that round to a magnitude, in quarters of its units: around `4 · units`, up to
half a step on either side, where the step below a power of two is half as wide. -/
structure Rounding where
  low : Nat
  high : Nat
  /-- Whether the ends themselves round to the magnitude, as they do for even ones. -/
  closed : Bool

/-- The reals that round to a finite word. -/
def rounding {f : Format} (x : Binary f) : Rounding :=
  let step := Nat.pow 2 (x.exponentField - 1)
  let narrow := x.fraction = 0 ∧ 1 < x.exponentField
  { low := 4 * x.units - (if narrow then step else 2 * step)
    high := 4 * x.units + 2 * step
    closed := x.fraction % 2 = 0 }

/-- Whether `num / den` quarters of a unit lie among the reals. -/
def Rounding.contains (r : Rounding) (num den : Nat) : Bool :=
  if r.closed then decide (r.low * den ≤ num ∧ num ≤ r.high * den)
  else decide (r.low * den < num ∧ num < r.high * den)

/-- The point of the grid of multiples of `10 ^ exponent` that reads back as the word and is
nearest to it, a half going to the even one. -/
def gridPoint? {f : Format} (x : Binary f) (exponent : Int) : Option Nat :=
  -- one grid step is `step / size` quarters of a unit
  let step := Nat.pow 10 exponent.toNat * (4 * f.one)
  let size := Nat.pow 10 (-exponent).toNat
  let below := 4 * x.units * size / step
  let nearest := roundDiv (4 * x.units * size) step
  let fits := fun n => x.rounding.contains (n * step) size
  if fits nearest then some nearest
  else if fits below then some below
  else if fits (below + 1) then some (below + 1)
  else none

/-- Searches the grids from a coarse one downwards. -/
def firstGrid {f : Format} (x : Binary f) : Nat → Int → Decimal
  | 0, exponent => ⟨0, exponent⟩
  | steps + 1, exponent =>
    match x.gridPoint? exponent with
    | some digits => ⟨digits, exponent⟩
    | none => x.firstGrid steps (exponent - 1)

/-- The shortest decimal that reads back as the magnitude of a finite double that is not zero,
and of those the nearest. No double reaches `10 ^ 309`, and each is a multiple of `10 ^ -1074`. -/
def shortest (x : Binary64) : Decimal := x.firstGrid 1400 309

end Binary

/-- How a decimal is spelled. -/
structure DecimalStyle where
  /-- The number of places before the point is at least this where positional notation is
  used; at most zero of them are zeros behind the point. -/
  leastPlaces : Int
  /-- The number of places before the point is at most this in positional notation. -/
  mostPlaces : Int
  /-- What follows a whole number in positional notation. -/
  wholeTail : List Char
  /-- What introduces an exponent that is not negative. -/
  exponentMark : List Char
  /-- What introduces a negative exponent. -/
  negativeExponentMark : List Char

namespace DecimalStyle

/-- A decimal in the given style. -/
def text (n : DecimalStyle) (d : Decimal) : List Char :=
  let digits := Nat.toDigits 10 d.digits
  let places := digits.length + d.exponent
  if n.leastPlaces ≤ places ∧ places ≤ n.mostPlaces then
    if 0 ≤ d.exponent then digits ++ List.replicate d.exponent.toNat '0' ++ n.wholeTail
    else if 0 < places then digits.take places.toNat ++ '.' :: digits.drop places.toNat
    else '0' :: '.' :: List.replicate (-places).toNat '0' ++ digits
  else
    let mantissa :=
      match digits with
      | first :: second :: rest => first :: '.' :: second :: rest
      | short => short
    let power := places - 1
    mantissa ++
      if power < 0 then n.negativeExponentMark ++ Nat.toDigits 10 power.natAbs
      else n.exponentMark ++ Nat.toDigits 10 power.natAbs

end DecimalStyle

namespace Binary

/-- Text of a number without decimal places: the nearest whole number, a half going to the
even one, with the sign of the word also before a zero. -/
def wholeText {f : Format} (x : Binary f) : List Char :=
  match x.value with
  | .nan => ['N', 'a', 'N']
  | .infinite negative => if negative then ['-', 'i', 'n', 'f'] else ['i', 'n', 'f']
  | .finite negative units =>
    let digits := Nat.toDigits 10 (roundDiv units f.one)
    if negative then '-' :: digits else digits

end Binary

end Pitwall
