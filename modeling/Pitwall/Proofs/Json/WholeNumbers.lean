import Mathlib.Data.List.TakeWhile
import Pitwall.Proofs.Json.Scanning
import Pitwall.Proofs.Text.Digits

/-!
# Whole numbers — one text for each

Only the decimal digits of a number, without zeros in front, are read as that number
(**`Numeral.read?_eq_natural_iff`**), so a whole number that fits into 64 bits has one text and is
read back from it: **`Number.legible_int`**.
-/

namespace Pitwall

namespace Json

open Text

/-! ## Numerals without point and exponent -/

namespace Numeral

/-- The numeral of some digits alone. -/
def natural (negative : Bool) (ds : List Char) : Numeral := ⟨negative, ds, none, none⟩

theorem unsigned?_decimal (negative : Bool) (n : Nat) :
    unsigned? negative (decimal n) = some (natural negative (decimal n)) := by
  have hdigits : ∀ c ∈ decimal n, c.isDigit = true := fun c hc => isDigit_of_mem_decimal hc
  have hwhole : (decimal n).takeWhile Char.isDigit = decimal n :=
    List.takeWhile_eq_self_iff.2 hdigits
  have hrest : (decimal n).dropWhile Char.isDigit = [] :=
    (List.dropWhile_eq_nil_iff (p := Char.isDigit)).2 hdigits
  have hstart : ((decimal n).isEmpty ||
      (decimal n).head? == some '0' && decide (1 < (decimal n).length)) = false := by
    have hne : (decimal n).isEmpty = false := List.isEmpty_eq_false_iff.2 (decimal_ne_nil n)
    rw [hne, Bool.false_or, Bool.and_eq_false_iff, beq_eq_false_iff_ne, decide_eq_false_iff_not]
    by_cases hhead : (decimal n).head? = some '0'
    · exact .inr (Nat.not_lt.2 (noLeadingZero_decimal n hhead))
    · exact .inl hhead
  simp only [unsigned?, hwhole, hrest, hstart, Bool.false_eq_true, if_false]
  rfl

theorem tail?_spec {negative : Bool} {whole : List Char} {fraction : Option (List Char)}
    {rest : List Char} {m : Numeral} (h : tail? negative whole fraction rest = some m) :
    m.negative = negative ∧ m.whole = whole ∧ m.fraction = fraction ∧
      (m.exponent = none → rest = []) := by
  cases rest with
  | nil =>
      rw [← Option.some.inj h]
      exact ⟨rfl, rfl, rfl, fun _ => rfl⟩
  | cons mark rest =>
      rw [tail?] at h
      split at h
      · obtain ⟨e, -, rfl⟩ := Option.map_eq_some_iff.1 h
        exact ⟨rfl, rfl, rfl, fun he => nomatch he⟩
      · cases h

/-- A numeral without point and exponent is the digits of a number. -/
theorem eq_decimal_of_unsigned? {negative : Bool} {cs : List Char} {m : Numeral}
    (h : unsigned? negative cs = some m) (hfraction : m.fraction = none)
    (hexponent : m.exponent = none) :
    m.negative = negative ∧ m.whole = cs ∧ cs = decimal (digitsValue cs) := by
  simp only [unsigned?] at h
  split at h
  · cases h
  · next hstart =>
    have hsplit : cs.takeWhile Char.isDigit ++ cs.dropWhile Char.isDigit = cs :=
      List.takeWhile_append_dropWhile
    -- behind a point there would be a fraction
    have htail : tail? negative (cs.takeWhile Char.isDigit) none (cs.dropWhile Char.isDigit) =
        some m := by
      split at h
      · split at h
        · cases h
        · have hpoint := (tail?_spec h).2.2.1
          rw [hfraction] at hpoint
          cases hpoint
      · exact h
    obtain ⟨hnegative, hwhole, -, hrest⟩ := tail?_spec htail
    rw [hrest hexponent, List.append_nil] at hsplit
    rw [hsplit] at hwhole hstart
    rw [Bool.not_eq_true, Bool.or_eq_false_iff, Bool.and_eq_false_iff, beq_eq_false_iff_ne,
      decide_eq_false_iff_not, List.isEmpty_eq_false_iff] at hstart
    have hzero : NoLeadingZero cs :=
      fun hhead => Nat.le_of_not_lt (hstart.2.resolve_left fun hne => hne hhead)
    have hdigits : ∀ c ∈ cs, c.isDigit = true := List.takeWhile_eq_self_iff.1 hsplit
    exact ⟨hnegative, hwhole, (decimal_digitsValue hstart.1 hdigits hzero).symm⟩

/-! ## Significands -/

theorem le_ofDigitChars (ds : List Char) (v : Nat) : v ≤ Nat.ofDigitChars 10 ds v := by
  induction ds generalizing v with
  | nil => exact Nat.le_refl v
  | cons d ds ih =>
      rw [Nat.ofDigitChars_cons]
      exact Nat.le_trans (by omega) (ih _)

theorem dropped_addWhole_le (s : Significand) (d : Char) : s.dropped ≤ (s.addWhole d).dropped := by
  rw [Significand.addWhole]
  split
  · exact Nat.le_succ _
  · exact Nat.le_refl _

theorem dropped_foldl_addWhole_le (ds : List Char) (s : Significand) :
    s.dropped ≤ (ds.foldl Significand.addWhole s).dropped := by
  induction ds generalizing s with
  | nil => exact Nat.le_refl _
  | cons d ds ih => exact Nat.le_trans (dropped_addWhole_le s d) (ih _)

/-- As long as the number fits, all of its digits are taken in. -/
theorem foldl_addWhole (ds : List Char) (v : Nat) :
    (Nat.ofDigitChars 10 ds v < wordLimit →
      ds.foldl Significand.addWhole ⟨v, 0, 0, false⟩ = ⟨Nat.ofDigitChars 10 ds v, 0, 0, false⟩) ∧
    ((ds.foldl Significand.addWhole ⟨v, 0, 0, false⟩).dropped = 0 → v < wordLimit →
      Nat.ofDigitChars 10 ds v < wordLimit) := by
  induction ds generalizing v with
  | nil => exact ⟨fun _ => rfl, fun _ h => h⟩
  | cons d ds ih =>
      have hdigit : digitsValue [d] = d.toNat - '0'.toNat := by simp [digitsValue]
      have hnext := le_ofDigitChars ds (10 * v + (d.toNat - '0'.toNat))
      rw [Nat.ofDigitChars_cons, List.foldl_cons, Significand.addWhole, hdigit]
      by_cases hfits : 10 * v + (d.toNat - '0'.toNat) < wordLimit
      · rw [if_neg (by simpa using hfits)]
        exact ⟨(ih _).1, fun hdropped _ => (ih _).2 hdropped hfits⟩
      · rw [if_pos (Or.inr (Nat.le_of_not_lt hfits))]
        refine ⟨fun h => absurd (Nat.lt_of_le_of_lt hnext h) hfits, fun hdropped _ => ?_⟩
        have hle : 0 + 1 ≤ _ := dropped_foldl_addWhole_le ds ⟨v, 0 + 1, 0, false⟩
        exact absurd (hdropped ▸ hle) (by decide)

theorem significand_natural {negative : Bool} {ds : List Char} (h : digitsValue ds < wordLimit) :
    (natural negative ds).significand = ⟨digitsValue ds, 0, 0, false⟩ := (foldl_addWhole ds 0).1 h

theorem number?_natural {n : Nat} (h : n < wordLimit) :
    (natural false (decimal n)).number? = some (.int n) := by
  have hvalue := digitsValue_decimal n
  rw [number?, significand_natural (hvalue.symm ▸ h), hvalue]
  rfl

theorem number?_natural_negative {n : Nat} (hpos : 0 < n) (h : n ≤ 9223372036854775808) :
    (natural true (decimal n)).number? = some (.int (-n)) := by
  have hvalue := digitsValue_decimal n
  have hlimit : n < wordLimit := Nat.lt_of_le_of_lt h (by decide)
  rw [number?, significand_natural (hvalue.symm ▸ hlimit), hvalue]
  simp [natural, hpos, h]

/-- What stands for a natural number has no sign, no point and no exponent, and all of its digits are
taken in. -/
theorem eq_natural_of_number? {m : Numeral} {n : Nat} (h : m.number? = some (.int n)) :
    m = natural false m.whole ∧ m.significand.dropped = 0 ∧ m.significand.value = n := by
  simp only [number?] at h
  split at h
  · next hwhole =>
    simp only [Bool.and_eq_true, Option.isNone_iff_eq_none, beq_iff_eq, Bool.or_eq_true,
      Bool.not_eq_true', decide_eq_true_eq] at hwhole
    obtain ⟨⟨⟨hfraction, hexponent⟩, hdropped⟩, hsign⟩ := hwhole
    have hvalue := Number.int.inj (Option.some.inj h)
    -- a minus sign would make the number negative
    have hpositive : m.negative = false := by
      cases hnegative : m.negative with
      | false => rfl
      | true =>
          rw [hnegative] at hsign hvalue
          simp at hsign hvalue
          omega
    rw [hpositive, if_neg Bool.false_ne_true, Int.ofNat_inj] at hvalue
    refine ⟨?_, hdropped, hvalue⟩
    cases m
    cases hfraction
    cases hexponent
    cases hpositive
    rfl
  · obtain ⟨x, -, hx⟩ := Option.map_eq_some_iff.1 h
    cases hx

theorem read?_decimal (n : Nat) : read? (decimal n) = some (natural false (decimal n)) := by
  obtain ⟨c, cs, hcs⟩ := List.exists_cons_of_ne_nil (decimal_ne_nil n)
  have hc : c.isDigit = true := isDigit_of_mem_decimal (hcs ▸ List.mem_cons_self)
  have hread : read? (decimal n) = unsigned? false (decimal n) := by
    rw [hcs, read?.eq_def]
    split
    · next heq =>
      cases heq
      cases hc
    · rfl
  rw [hread, unsigned?_decimal]

/-- What is read without sign, point and exponent is the digits of a number. -/
theorem eq_decimal_of_read? {cs ds : List Char} (h : read? cs = some (natural false ds)) :
    cs = ds ∧ ds = decimal (digitsValue ds) := by
  have hunsigned : unsigned? false cs = some (natural false ds) := by
    rw [read?.eq_def] at h
    split at h
    · cases (eq_decimal_of_unsigned? h rfl rfl).1
    · exact h
  obtain ⟨-, rfl, hdecimal⟩ := eq_decimal_of_unsigned? hunsigned rfl rfl
  exact ⟨rfl, hdecimal⟩

/-- **NATURAL NUMBERS** are read from their decimal digits and from nothing else. -/
theorem read?_eq_natural_iff {cs : List Char} {n : Nat} :
    (read? cs >>= number?) = some (.int n) ↔ cs = decimal n ∧ n < wordLimit := by
  constructor
  · intro h
    obtain ⟨m, hm, hnumber⟩ := Option.bind_eq_some_iff.1 h
    obtain ⟨hnatural, hdropped, hvalue⟩ := eq_natural_of_number? hnumber
    generalize m.whole = ds at hnatural
    subst hnatural
    obtain ⟨rfl, hdecimal⟩ := eq_decimal_of_read? hm
    have hlimit : digitsValue cs < wordLimit := (foldl_addWhole cs 0).2 hdropped (by decide)
    rw [significand_natural hlimit] at hvalue
    rw [← hvalue]
    exact ⟨hdecimal, hlimit⟩
  · rintro ⟨rfl, hn⟩
    rw [read?_decimal]
    exact number?_natural hn

end Numeral

/-! ## Texts of whole numbers -/

namespace Token

theorem endsWord_of_isDigit {c : Char} (h : c.isDigit = true) : endsWord c = false := by
  have hmarks : ∀ d ∈ [' ', '\t', '\n', '\r', '"', '[', ']', '\x7b', '\x7d', ',', ':'],
      d.isDigit = false := by simp
  have hne : ∀ d ∈ [' ', '\t', '\n', '\r', '"', '[', ']', '\x7b', '\x7d', ',', ':'], c ≠ d := by
    rintro d hd rfl
    rw [hmarks c hd] at h
    cases h
  simp only [List.mem_cons, List.not_mem_nil, or_false, forall_eq_or_imp, forall_eq] at hne
  simp [endsWord, isBlank, ofMark?, hne]

end Token

/-- A word that is a numeral is no literal. -/
theorem Token.ofWord?_of_read? {word : List Char} {m : Numeral} (h : Numeral.read? word = some m) :
    ofWord? word = some (.num m.number?) := by
  have hnull : word ≠ ['n', 'u', 'l', 'l'] := by
    rintro rfl
    cases h
  have htrue : word ≠ ['t', 'r', 'u', 'e'] := by
    rintro rfl
    cases h
  have hfalse : word ≠ ['f', 'a', 'l', 's', 'e'] := by
    rintro rfl
    cases h
  rw [ofWord?, if_neg hnull, if_neg htrue, if_neg hfalse, h, Option.map_some]

/-- **WHOLE NUMBERS** of 64 bits are what their texts stand for. -/
theorem Number.legible_int {n : Int} (hlow : -9223372036854775808 ≤ n)
    (hhigh : n < 18446744073709551616) : (Number.int n).Legible := by
  have hdigits : ∀ c ∈ decimal n.natAbs, Token.endsWord c = false :=
    fun c hc => Token.endsWord_of_isDigit (isDigit_of_mem_decimal hc)
  by_cases hneg : n < 0
  · have htext : (Number.int n).text = '-' :: decimal n.natAbs := if_pos hneg
    have hread : Numeral.read? ('-' :: decimal n.natAbs) =
        some (.natural true (decimal n.natAbs)) := Numeral.unsigned?_decimal true n.natAbs
    have hvalue : (Numeral.natural true (decimal n.natAbs)).number? = some (.int n) := by
      rw [Numeral.number?_natural_negative (by omega) (by omega)]
      congr 2
      omega
    constructor
    · rw [htext, Token.ofWord?_of_read? hread, hvalue]
    · rw [htext]
      exact List.forall_mem_cons.2 ⟨rfl, hdigits⟩
  · have htext : (Number.int n).text = decimal n.natAbs := if_neg hneg
    have hn : (n.natAbs : Int) = n := by omega
    have hlimit : n.natAbs < Numeral.wordLimit := by
      rw [Numeral.wordLimit]
      omega
    constructor
    · rw [htext, Token.ofWord?_of_read? (Numeral.read?_decimal _), Numeral.number?_natural hlimit,
        hn]
    · rw [htext]
      exact hdigits

end Json

end Pitwall
