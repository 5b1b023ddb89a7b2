import Mathlib.Data.List.Induction
import Pitwall.Text.Blank
import Pitwall.Text.Digits

/-!
# Reading digits — what is written in digits reads back

The digits of a number, filled up with zeros or not, write that number: **`digitsValue_padded`**.
Without zeros in front there is only one way to write it: **`decimal_digitsValue`**. Where digits
fill their width or something else than a digit follows, they are read back:
**`readDigits?_padded`** and **`readDigits?_append`**. At the end of a text they are told from what
stands before them by whatever is no digit: **`append_digits_inj`**.
-/

namespace Pitwall.Text

/-! ## The number that digits write -/

theorem digitsValue_eq (ds : List Char) : digitsValue ds = Nat.ofDigitChars 10 ds 0 := rfl

theorem digitsValue_decimal (n : Nat) : digitsValue (decimal n) = n :=
  Nat.ofDigitChars_ten_toDigits

/-- Different numbers are written differently. -/
theorem decimal_injective : Function.Injective decimal :=
  Function.LeftInverse.injective digitsValue_decimal

theorem decimal_ne_nil (n : Nat) : decimal n ≠ [] := Nat.toDigits_ne_nil

theorem isDigit_of_mem_decimal {n : Nat} {c : Char} (h : c ∈ decimal n) : c.isDigit = true :=
  Nat.isDigit_of_mem_toDigits (by decide) (by decide) h

/-- Zeros in front do not count. -/
theorem digitsValue_padded (width n : Nat) : digitsValue (padded width n) = n := by
  rw [digitsValue_eq, padded, Nat.ofDigitChars_append, Nat.ofDigitChars_replicate_zero,
    Nat.mul_zero]
  exact digitsValue_decimal n

theorem isDigit_of_mem_padded {width n : Nat} {c : Char} (h : c ∈ padded width n) :
    c.isDigit = true := by
  rcases List.mem_append.1 h with h | h
  · rw [List.eq_of_mem_replicate h]
    rfl
  · exact isDigit_of_mem_decimal h

theorem padded_ne_nil (width n : Nat) : padded width n ≠ [] :=
  List.append_ne_nil_of_right_ne_nil _ (decimal_ne_nil n)

/-- A number that fits into the width fills it. -/
theorem length_padded {width n : Nat} (hwidth : 0 < width) (h : n < Nat.pow 10 width) :
    (padded width n).length = width := by
  have hle : (decimal n).length ≤ width := (Nat.length_toDigits_le_iff (by decide) hwidth).2 h
  rw [padded, List.length_append, List.length_replicate, Nat.sub_add_cancel hle]

/-! ## Digits without zeros in front -/

theorem toNat_of_isDigit {c : Char} (h : c.isDigit = true) : 48 ≤ c.toNat ∧ c.toNat ≤ 57 := by
  simp only [Char.isDigit, Bool.and_eq_true, decide_eq_true_eq, ge_iff_le,
    UInt32.le_iff_toNat_le] at h
  exact h

/-- A digit stands for a number below ten. -/
theorem digit_lt {c : Char} (h : c.isDigit = true) : c.toNat - '0'.toNat < 10 := by
  have hc := toNat_of_isDigit h
  show c.toNat - 48 < 10
  omega

/-- A digit is the text of its number. -/
theorem decimal_digit {c : Char} (h : c.isDigit = true) : decimal (c.toNat - '0'.toNat) = [c] := by
  have hc := toNat_of_isDigit h
  have hchar : Nat.digitChar (c.toNat - '0'.toNat) = c := by
    refine Char.toNat_inj.1 ?_
    rw [Nat.toNat_digitChar_of_lt_ten (digit_lt h)]
    show 48 + (c.toNat - 48) = c.toNat
    omega
  rw [decimal, Nat.toDigits_of_lt_base (digit_lt h), hchar]

/-- Only the text of zero begins with a zero. -/
theorem eq_zero_of_head?_decimal {n : Nat} (h : (decimal n).head? = some '0') : n = 0 := by
  induction n using Nat.strongRecOn with
  | ind n ih =>
      by_cases hn : n < 10
      · have hdigit : ∀ n < 10, [Nat.digitChar n].head? = some '0' → n = 0 := by decide
        rw [decimal, Nat.toDigits_of_lt_base hn] at h
        exact hdigit n hn h
      · have hsplit : decimal n = decimal (n / 10) ++ [Nat.digitChar (n % 10)] :=
          Nat.toDigits_of_base_le (by decide) (by omega)
        obtain ⟨c, cs, hcs⟩ := List.exists_cons_of_ne_nil (decimal_ne_nil (n / 10))
        have hfront : (decimal (n / 10)).head? = some '0' := by
          rw [hsplit, hcs] at h
          rw [hcs]
          exact h
        have hzero := ih (n / 10) (by omega) hfront
        omega

/-- A zero stands in front of no other digit. -/
def NoLeadingZero (ds : List Char) : Prop := ds.head? = some '0' → ds.length ≤ 1

theorem noLeadingZero_decimal (n : Nat) : NoLeadingZero (decimal n) := by
  intro h
  rw [eq_zero_of_head?_decimal h]
  decide

/-- **ONE TEXT FOR EACH NUMBER**: digits without zeros in front are those of their number. -/
theorem decimal_digitsValue {ds : List Char} (hne : ds ≠ []) (hds : ∀ c ∈ ds, c.isDigit = true)
    (hzero : NoLeadingZero ds) : decimal (digitsValue ds) = ds := by
  induction ds using List.reverseRecOn with
  | nil => exact absurd rfl hne
  | append_singleton ds d ih =>
      have hd : d.isDigit = true := hds d (by simp)
      have hvalue : digitsValue (ds ++ [d]) = 10 * digitsValue ds + (d.toNat - '0'.toNat) := by
        rw [digitsValue, List.foldl_append]
        rfl
      rw [hvalue]
      cases ds with
      | nil => simpa [digitsValue] using decimal_digit hd
      | cons c cs =>
          -- what stands before the last digit does not begin with a zero
          have hhead : (c :: cs).head? ≠ some '0' := by
            intro h
            have hlong := hzero h
            simp at hlong
          have hfront : decimal (digitsValue (c :: cs)) = c :: cs :=
            ih (List.cons_ne_nil c cs) (fun c hc => hds c (List.mem_append_left _ hc))
              fun h => absurd h hhead
          have hpos : 0 < digitsValue (c :: cs) := by
            refine Nat.pos_of_ne_zero fun h => hhead ?_
            rw [← hfront, h]
            rfl
          have hjoin : decimal (digitsValue (c :: cs)) ++ decimal (d.toNat - '0'.toNat) =
              decimal (10 * digitsValue (c :: cs) + (d.toNat - '0'.toNat)) :=
            Nat.toDigits_append_toDigits (by decide) hpos (digit_lt hd)
          rw [← hjoin, hfront, decimal_digit hd]

/-- Digits of any width are what their number is filled up to. -/
theorem padded_digitsValue {ds : List Char} (hne : ds ≠ []) (hds : ∀ c ∈ ds, c.isDigit = true) :
    padded ds.length (digitsValue ds) = ds := by
  induction ds with
  | nil => exact absurd rfl hne
  | cons d ds ih =>
      by_cases hd : d = '0'
      · subst hd
        cases ds with
        | nil => rfl
        | cons c cs =>
            have hrest := ih (List.cons_ne_nil c cs) fun c hc => hds c (List.mem_cons_of_mem _ hc)
            have hshort := congrArg List.length hrest
            rw [padded, List.length_append, List.length_replicate] at hshort
            have hvalue : digitsValue ('0' :: c :: cs) = digitsValue (c :: cs) := rfl
            -- one more zero is filled in
            rw [hvalue, padded, List.length_cons, Nat.succ_sub (by omega), List.replicate_succ]
            exact congrArg ('0' :: ·) hrest
      · have hfirst : NoLeadingZero (d :: ds) := fun h => absurd (Option.some.inj h) hd
        rw [padded, decimal_digitsValue hne hds hfirst, Nat.sub_self]
        rfl

/-- Digits of one width are told apart by their numbers. -/
theorem eq_of_digitsValue_eq {ds ds' : List Char} (hds : ∀ c ∈ ds, c.isDigit = true)
    (hds' : ∀ c ∈ ds', c.isDigit = true) (hlength : ds.length = ds'.length)
    (h : digitsValue ds = digitsValue ds') : ds = ds' := by
  cases ds with
  | nil => exact (List.length_eq_zero_iff.1 hlength.symm).symm
  | cons d ds =>
      have hne : ds' ≠ [] := by
        rintro rfl
        cases hlength
      rw [← padded_digitsValue (List.cons_ne_nil d ds) hds, ← padded_digitsValue hne hds', h,
        hlength]

/-- So many digits do not write more than so many digits can. -/
theorem digitsValue_lt {ds : List Char} (hne : ds ≠ []) (hds : ∀ c ∈ ds, c.isDigit = true) :
    digitsValue ds < Nat.pow 10 ds.length := by
  have hshort := congrArg List.length (padded_digitsValue hne hds)
  rw [padded, List.length_append, List.length_replicate] at hshort
  exact (Nat.length_toDigits_le_iff (by decide) (List.length_pos_iff.2 hne)).1
    (show (decimal (digitsValue ds)).length ≤ ds.length by omega)

/-! ## Reading digits -/

variable {ds rest : List Char}

theorem readDigits?_of_run {most : Nat} (hne : ds ≠ [])
    (hrun : ((ds ++ rest).take most).takeWhile Char.isDigit = ds) :
    readDigits? most (ds ++ rest) = some (digitsValue ds, rest) := by
  simp only [readDigits?, hrun, List.isEmpty_eq_false_iff.2 hne, List.drop_left']
  rfl

theorem takeWhile_isDigit (hds : ∀ c ∈ ds, c.isDigit = true)
    (hrest : ∀ c ∈ rest.head?, c.isDigit = false) : (ds ++ rest).takeWhile Char.isDigit = ds := by
  have hnone : rest.takeWhile Char.isDigit = [] := by
    cases rest with
    | nil => rfl
    | cons c rest => rw [List.takeWhile_cons_of_neg (by simp [hrest c rfl])]
  rw [List.takeWhile_append_of_pos hds, hnone, List.append_nil]

/-- Digits at the end of a text are told from what stands before them by a character that is none,
even if it occurs there as well. -/
theorem append_digits_inj {front front' ds ds' : List Char} {c : Char} (hc : c.isDigit = false)
    (hds : ∀ d ∈ ds, d.isDigit = true) (hds' : ∀ d ∈ ds', d.isDigit = true)
    (h : front ++ c :: ds = front' ++ c :: ds') : front = front' ∧ ds = ds' := by
  have hback : ∀ front ds : List Char, (∀ d ∈ ds, d.isDigit = true) →
      (front ++ c :: ds).reverse.takeWhile Char.isDigit = ds.reverse := by
    intro front ds hds
    rw [List.reverse_append, List.reverse_cons, List.append_assoc]
    exact takeWhile_isDigit (by simpa using hds) (by simpa using hc)
  have hsame : ds = ds' := by
    rw [← List.reverse_inj, ← hback front ds hds, ← hback front' ds' hds', h]
  rw [hsame] at h
  exact ⟨List.append_cancel_right h, hsame⟩

/-- Digits are read up to the first character that is none. -/
theorem readDigits?_append {most : Nat} (hne : ds ≠ []) (hds : ∀ c ∈ ds, c.isDigit = true)
    (hmost : ds.length ≤ most) (hrest : ∀ c ∈ rest.head?, c.isDigit = false) :
    readDigits? most (ds ++ rest) = some (digitsValue ds, rest) := by
  refine readDigits?_of_run hne ?_
  rw [List.take_append, List.take_of_length_le hmost]
  refine takeWhile_isDigit hds fun c hc => hrest c ?_
  cases hroom : most - ds.length with
  | zero => simp [hroom] at hc
  | succ room => simpa [hroom, List.head?_take] using hc

/-- As many digits are read as are asked for. -/
theorem readDigits?_length (hne : ds ≠ []) (hds : ∀ c ∈ ds, c.isDigit = true) :
    readDigits? ds.length (ds ++ rest) = some (digitsValue ds, rest) := by
  refine readDigits?_of_run hne ?_
  rw [List.take_left' rfl]
  simpa using @takeWhile_isDigit ds [] hds (by simp)

/-- A number that fits into its width is read back, whatever follows. -/
theorem readDigits?_padded {width n : Nat} (hwidth : 0 < width) (h : n < Nat.pow 10 width) :
    readDigits? width (padded width n ++ rest) = some (n, rest) := by
  have hread : readDigits? (padded width n).length (padded width n ++ rest) = _ :=
    readDigits?_length (padded_ne_nil width n) fun c hc => isDigit_of_mem_padded hc
  rw [length_padded hwidth h, digitsValue_padded] at hread
  exact hread

/-! ## Blanks -/

/-- Digits are not blank. -/
theorem isBlank_of_isDigit {c : Char} (h : c.isDigit = true) : isBlank c = false := by
  have hc := toNat_of_isDigit h
  simp [isBlank, blankRanges]
  omega

theorem trimStart_cons {c : Char} (h : isBlank c = false) : trimStart (c :: rest) = c :: rest := by
  rw [trimStart, List.dropWhile_cons_of_neg (by simp [h])]

/-- In front of a number there is nothing to cut off. -/
theorem trimStart_padded (width n : Nat) :
    trimStart (padded width n ++ rest) = padded width n ++ rest := by
  obtain ⟨c, cs, hcs⟩ := List.exists_cons_of_ne_nil (padded_ne_nil width n)
  have hc : c.isDigit = true := isDigit_of_mem_padded (hcs ▸ List.mem_cons_self)
  rw [hcs]
  exact trimStart_cons (isBlank_of_isDigit hc)

end Pitwall.Text
