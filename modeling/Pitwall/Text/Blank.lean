/-!
# Blank — white space around a text

The property White_Space of the Unicode standard, and cutting such characters off the ends of
a text.
-/

namespace Pitwall.Text

/-- The code points of white space. -/
def blankRanges : List (Nat × Nat) :=
  [(0x9, 0xD), (0x20, 0x20), (0x85, 0x85), (0xA0, 0xA0), (0x1680, 0x1680), (0x2000, 0x200A),
   (0x2028, 0x2029), (0x202F, 0x202F), (0x205F, 0x205F), (0x3000, 0x3000)]

/-- Whether a character is white space. -/
def isBlank (c : Char) : Bool :=
  blankRanges.any (fun r => decide (r.1 ≤ c.toNat ∧ c.toNat ≤ r.2))

/-- Cuts white space off the front. -/
def trimStart (cs : List Char) : List Char := cs.dropWhile isBlank

/-- Cuts white space off the end. -/
def trimEnd (cs : List Char) : List Char := (cs.reverse.dropWhile isBlank).reverse

/-- Cuts white space off both ends. -/
def trim (cs : List Char) : List Char := trimEnd (trimStart cs)

/-- What is left after trimming the front does not begin with white space. -/
theorem not_isBlank_of_trimStart_eq_cons {cs rest : List Char} {c : Char}
    (h : trimStart cs = c :: rest) : isBlank c = false := by
  induction cs with
  | nil => cases h
  | cons d ds ih =>
    rw [trimStart, List.dropWhile_cons] at h
    split at h
    · exact ih h
    · next hd =>
      cases h
      simpa using hd

end Pitwall.Text
