import Pitwall.Proofs.Text.Digits
import Pitwall.Proofs.Time.Calendar
import Pitwall.Time.Rfc3339

/-!
# Timestamps read back — the text of an instant is that instant

Each field of a timestamp is read back from what is written for it, so the text of an instant is cut
into the fields of that instant, **`Instant.stamp`**. These make the instant again, a leap second
included: **`Instant.read?_text`**.
-/

namespace Pitwall

open Text

/-! ## Fields -/

namespace Stamp

variable {rest : List Char}

theorem number?_padded {width n : Nat} (hwidth : 0 < width) (h : n < Nat.pow 10 width) :
    number? width (padded width n ++ rest) = some (n, rest) := by
  rw [number?, trimStart_padded, readDigits?_padded hwidth h]

theorem skip?_cons {mark : Char} (h : isBlank mark = false) :
    skip? mark (mark :: rest) = some rest := by
  rw [skip?, trimStart_cons h]
  exact if_pos rfl

/-- Behind a sign a year may have any number of digits. -/
theorem readDigits?_signed (year : Nat) :
    readDigits? (padded 4 year ++ '-' :: rest).length (padded 4 year ++ '-' :: rest) =
      some (year, '-' :: rest) := by
  rw [readDigits?_append (padded_ne_nil 4 year) (fun c hc => isDigit_of_mem_padded hc) (by simp)
    (by simp), digitsValue_padded]

/-- **YEARS READ BACK**, whatever their number of digits. -/
theorem year?_yearText (year : Int) :
    year? (Instant.yearText year ++ '-' :: rest) = some (year, '-' :: rest) := by
  rw [Instant.yearText]
  split
  · next hplain =>
    have hread : readDigits? 4 (padded 4 year.natAbs ++ '-' :: rest) =
        some (year.natAbs, '-' :: rest) :=
      readDigits?_padded (by decide) (show year.natAbs < 10000 by omega)
    have hyear : (year.natAbs : Int) = year := by omega
    -- there is no sign in front: the text begins with a digit
    obtain ⟨c, cs, hcs⟩ := List.exists_cons_of_ne_nil (padded_ne_nil 4 year.natAbs)
    have hc : c.isDigit = true := isDigit_of_mem_padded (hcs ▸ List.mem_cons_self)
    rw [year?, trimStart_padded]
    rw [hcs] at hread ⊢
    split
    · next heq =>
      cases heq
      cases hc
    · next heq =>
      cases heq
      cases hc
    · simp only [hread, Option.map_some, hyear]
  · split
    · next hneg =>
      have hyear : -(year.natAbs : Int) = year := by omega
      rw [List.cons_append, year?, trimStart_cons rfl]
      simp only [readDigits?_signed, Option.map_some, hyear]
    · next hpos =>
      have hyear : (year.natAbs : Int) = year := by omega
      rw [List.cons_append, year?, trimStart_cons rfl]
      simp only [readDigits?_signed, Option.map_some, hyear]

/-- Up to nine digits behind a point are read to the nanosecond. -/
theorem fraction?_padded {places n : Nat} (hplaces : 0 < places ∧ places ≤ 9)
    (h : n < Nat.pow 10 places) :
    fraction? ('.' :: padded places n ++ 'Z' :: rest) =
      some (n * Nat.pow 10 (9 - places), 'Z' :: rest) := by
  have hlength : (padded places n).length = places := length_padded hplaces.1 h
  have hrun : (padded places n ++ 'Z' :: rest).takeWhile Char.isDigit = padded places n :=
    takeWhile_isDigit (fun c hc => isDigit_of_mem_padded hc) (by simp)
  rw [List.cons_append, fraction?, hrun]
  simp only [List.isEmpty_eq_false_iff.2 (padded_ne_nil places n), hlength, Bool.false_eq_true,
    if_false]
  rw [List.take_of_length_le (by omega), digitsValue_padded, List.drop_left' hlength]

/-- **FRACTIONS READ BACK**: what is cut off are zeros. -/
theorem fraction?_fractionText {nano : Nat} (h : nano < 1000000000) :
    fraction? (Instant.fractionText nano ++ 'Z' :: rest) = some (nano, 'Z' :: rest) := by
  rw [Instant.fractionText]
  split
  · next hzero =>
    rw [hzero]
    rfl
  · split
    · have hnano : nano / 1000000 * Nat.pow 10 (9 - 3) = nano := by
        show nano / 1000000 * 1000000 = nano
        omega
      rw [fraction?_padded (by decide) (show nano / 1000000 < 1000 by omega), hnano]
    · split
      · have hnano : nano / 1000 * Nat.pow 10 (9 - 6) = nano := by
          show nano / 1000 * 1000 = nano
          omega
        rw [fraction?_padded (by decide) (show nano / 1000 < 1000000 by omega), hnano]
      · have hnano : nano * Nat.pow 10 (9 - 9) = nano := Nat.mul_one nano
        rw [fraction?_padded (by decide) (show nano < 1000000000 by omega), hnano]

end Stamp

namespace Instant

/-! ## Instants -/

/-- The fields of an instant, in universal time. -/
def stamp (t : Instant) : Stamp where
  date := Date.ofDayNumber (t.second / secondsPerDay)
  hour := t.secondOfDay.toNat / 3600
  minute := t.secondOfDay.toNat / 60 % 60
  second := t.secondOfDay.toNat % 60 + if t.isLeap then 1 else 0
  nano := t.nano % nanosPerSecond
  offset := 0

theorem secondOfDay_lt (t : Instant) : t.secondOfDay.toNat < 86400 := by
  simp only [secondOfDay, secondsPerDay]
  omega

/-- The text of an instant is cut into its fields. -/
theorem read?_chars (t : Instant) : Stamp.read? t.chars = some t.stamp := by
  have hday := Date.exists?_ofDayNumber (t.second / secondsPerDay)
  have hmonth := Date.month_le hday
  have hdom := Date.day_le hday
  have htime := t.secondOfDay_lt
  have hnano : t.nano % nanosPerSecond < 1000000000 := Nat.mod_lt _ (by decide)
  have hsecond : t.secondOfDay.toNat % 60 + (if t.isLeap then 1 else 0) < 100 := by
    split <;> omega
  have hdash (cs : List Char) : Stamp.skip? '-' ('-' :: cs) = some cs := Stamp.skip?_cons rfl
  have hcolon (cs : List Char) : Stamp.skip? ':' (':' :: cs) = some cs := Stamp.skip?_cons rfl
  have htwo {n : Nat} (hn : n < 100) (cs : List Char) :
      Stamp.number? 2 (padded 2 n ++ cs) = some (n, cs) := Stamp.number?_padded (by decide) hn
  have hzone : Stamp.zone? (trimStart ['Z']) = some (0, []) := rfl
  -- the fields are cut off one after the other, each with the mark behind it
  simp only [Stamp.read?, chars, List.append_assoc, List.cons_append, Stamp.year?_yearText, hdash,
    hcolon, htwo (n := (Date.ofDayNumber (t.second / secondsPerDay)).month) (by omega),
    htwo (n := (Date.ofDayNumber (t.second / secondsPerDay)).day) (by omega),
    htwo (n := t.secondOfDay.toNat / 3600) (by omega),
    htwo (n := t.secondOfDay.toNat / 60 % 60) (by omega), htwo hsecond, Stamp.separator?,
    Stamp.fraction?_fractionText hnano, hzone, Option.bind_eq_bind, Option.bind_some]
  rfl

theorem second_of_isLeap {t : Instant} (h : t.isLeap = true) : t.secondOfDay.toNat % 60 = 59 := by
  have hsecond : t.second % 60 = 59 := t.leap (of_decide_eq_true h)
  simp only [secondOfDay, secondsPerDay]
  omega

theorem localSecond_stamp (t : Instant) : t.stamp.localSecond = t.second := by
  have hsecond : min t.stamp.second 59 = t.secondOfDay.toNat % 60 := by
    simp only [stamp]
    split
    · next hleap =>
      rw [second_of_isLeap hleap]
      rfl
    · omega
  have hclock : t.secondOfDay.toNat / 3600 * 3600 + t.secondOfDay.toNat / 60 % 60 * 60 +
      t.secondOfDay.toNat % 60 = t.secondOfDay.toNat := by omega
  rw [Stamp.localSecond, hsecond, stamp, Date.dayNumber_ofDayNumber, hclock]
  simp only [secondOfDay, secondsPerDay]
  omega

theorem nanos_stamp (t : Instant) : t.stamp.nanos = t.nano := by
  have hnano := t.nano_lt
  cases hleap : t.isLeap with
  | true =>
      have hge : nanosPerSecond ≤ t.nano := of_decide_eq_true hleap
      have hsecond : t.stamp.second = 60 := by simp [stamp, hleap, second_of_isLeap hleap]
      rw [Stamp.nanos, if_pos hsecond, stamp]
      simp only [nanosPerSecond] at *
      omega
  | false =>
      have hlt : t.nano < nanosPerSecond := Nat.lt_of_not_le (of_decide_eq_false hleap)
      have hsecond : t.stamp.second ≠ 60 := by
        simp only [stamp, hleap, Bool.false_eq_true, if_false]
        omega
      rw [Stamp.nanos, if_neg hsecond, stamp]
      exact Nat.mod_eq_of_lt hlt

theorem inRange_stamp (t : Instant) : t.stamp.inRange = true := by
  have htime := t.secondOfDay_lt
  have hday : t.stamp.date.exists? = true := Date.exists?_ofDayNumber _
  have hhour : t.secondOfDay.toNat / 3600 < 24 := by omega
  have hminute : t.secondOfDay.toNat / 60 % 60 < 60 := by omega
  have hsecond : t.secondOfDay.toNat % 60 + (if t.isLeap then 1 else 0) ≤ 60 := by
    split <;> omega
  rw [Stamp.inRange, hday]
  simp [stamp, hhour, hminute, hsecond]

/-- The fields of an instant make that instant. -/
theorem instant?_stamp (t : Instant) : t.stamp.instant? = some t := by
  have hbounds : firstSecond ≤ t.second ∧ t.second ≤ lastSecond ∧ t.nano < 2 * nanosPerSecond ∧
      (nanosPerSecond ≤ t.nano → t.second % 60 = 59) := ⟨t.lower, t.upper, t.nano_lt, t.leap⟩
  have hoffset : t.stamp.offset = 0 := rfl
  simp only [Stamp.instant?, localSecond_stamp, nanos_stamp, inRange_stamp, hoffset, Int.sub_zero]
  rw [dif_pos hbounds, if_neg]
  simpa using ⟨t.lower, t.upper⟩

/-- **TIMESTAMPS READ BACK.** -/
theorem read?_text (t : Instant) : read? t.text = some t := by
  rw [read?, text, String.toList_ofList, read?_chars, Option.bind_eq_bind, Option.bind_some,
    instant?_stamp]

end Instant

end Pitwall
