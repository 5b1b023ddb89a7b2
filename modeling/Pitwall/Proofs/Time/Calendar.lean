import Pitwall.Time.Calendar

/-!
# Dates of days — the calendar finds every day again

The year of a day is the one that the day lies in (**`yearOfDay_spec`**), the walk through the
months stops in the month that the day lies in (**`monthAndDay_spec`**), so every day has a date
that exists (**`Date.exists?_ofDayNumber`**) and stands for that day
(**`Date.dayNumber_ofDayNumber`**).
-/

namespace Pitwall

/-! ## Years -/

/-- A year is 365 days long, or 366 if it is a leap year. -/
theorem daysBeforeYear_succ (year : Int) :
    daysBeforeYear (year + 1) = daysBeforeYear year + if isLeapYear year then 366 else 365 := by
  simp only [daysBeforeYear, isLeapYear, Bool.and_eq_true, Bool.or_eq_true, beq_iff_eq,
    bne_iff_ne, ne_eq]
  split <;> omega

/-- The average length of a year is off by two days at most. -/
theorem daysBeforeYear_bounds (year : Int) :
    146097 * (year - 1) - 591 ≤ 400 * daysBeforeYear year ∧
      400 * daysBeforeYear year ≤ 146097 * (year - 1) + 396 := by
  simp only [daysBeforeYear]
  omega

/-- **THE YEAR OF A DAY** begins on that day or before and ends behind it. -/
theorem yearOfDay_spec (day : Int) :
    daysBeforeYear (yearOfDay day) ≤ day ∧ day < daysBeforeYear (yearOfDay day + 1) := by
  have hthis := daysBeforeYear_bounds (400 * day / 146097)
  have hnext := daysBeforeYear_bounds (400 * day / 146097 + 1 + 1 + 1)
  simp only [yearOfDay]
  split
  · next hearly =>
    -- the year before the estimate cannot begin behind the day as well
    refine ⟨?_, by simpa using hearly⟩
    rw [Int.add_sub_cancel]
    omega
  · split
    · next hlate =>
      -- nor can the year behind the estimate end before it
      refine ⟨hlate, ?_⟩
      omega
    · next hearly hlate => exact ⟨Int.not_lt.1 hearly, Int.not_le.1 hlate⟩

/-! ## Months -/

/-- The days of some months together. -/
def allDays (lengths : List Nat) : Nat := lengths.foldr (· + ·) 0

@[simp] theorem allDays_nil : allDays [] = 0 := rfl

theorem allDays_cons (length : Nat) (lengths : List Nat) :
    allDays (length :: lengths) = length + allDays lengths := rfl

/-- The months together are as long as the year. -/
theorem allDays_monthLengths (leap : Bool) :
    allDays (monthLengths leap) = if leap then 366 else 365 := by
  cases leap <;> rfl

/-- No month has more than 31 days. -/
theorem le_of_mem_monthLengths {leap : Bool} {n : Nat} (h : n ∈ monthLengths leap) : n ≤ 31 := by
  cases leap <;> revert n <;> decide

/-- **THE MONTH OF A DAY**: the walk stops behind `k` months, those that are over, with the days
that have passed since. -/
theorem monthAndDay_spec {lengths : List Nat} {passed : Nat} (h : passed < allDays lengths)
    (month : Nat) :
    ∃ k length, lengths[k]? = some length ∧
      allDays (lengths.take k) ≤ passed ∧ passed < allDays (lengths.take k) + length ∧
      monthAndDay lengths month passed = (month + k, passed - allDays (lengths.take k) + 1) := by
  induction lengths generalizing month passed with
  | nil => cases h
  | cons length lengths ih =>
      rw [allDays_cons] at h
      rw [monthAndDay]
      by_cases hhere : passed < length
      · exact ⟨0, length, rfl, Nat.zero_le _, by simpa using hhere, by simp [hhere]⟩
      · have hrest : passed - length < allDays lengths := by omega
        obtain ⟨k, n, hk, hle, hlt, hwalk⟩ := ih hrest (month + 1)
        refine ⟨k + 1, n, hk, ?_, ?_, ?_⟩
        · rw [List.take_succ_cons, allDays_cons]
          omega
        · rw [List.take_succ_cons, allDays_cons]
          omega
        · rw [if_neg hhere, hwalk, List.take_succ_cons, allDays_cons, Nat.sub_sub,
            Nat.add_right_comm, Nat.add_assoc]

/-! ## Dates -/

namespace Date

/-- The days that have passed in the year of a day. -/
theorem ofDayNumber_spec (day : Int) :
    ∃ k length, (monthLengths (isLeapYear (yearOfDay day)))[k]? = some length ∧
      let before := allDays ((monthLengths (isLeapYear (yearOfDay day))).take k)
      let passed := (day - daysBeforeYear (yearOfDay day)).toNat
      before ≤ passed ∧ passed < before + length ∧
      ofDayNumber day = ⟨yearOfDay day, 1 + k, passed - before + 1⟩ := by
  obtain ⟨hfirst, hlast⟩ := yearOfDay_spec day
  rw [daysBeforeYear_succ] at hlast
  have hpassed : (day - daysBeforeYear (yearOfDay day)).toNat <
      allDays (monthLengths (isLeapYear (yearOfDay day))) := by
    rw [allDays_monthLengths]
    split at hlast <;> simp_all <;> omega
  obtain ⟨k, length, hk, hle, hlt, hwalk⟩ := monthAndDay_spec hpassed 1
  refine ⟨k, length, hk, hle, hlt, ?_⟩
  rw [ofDayNumber, hwalk]

/-- **EVERY DAY HAS A DATE.** -/
theorem exists?_ofDayNumber (day : Int) : (ofDayNumber day).exists? = true := by
  obtain ⟨k, length, hk, hle, hlt, hdate⟩ := ofDayNumber_spec day
  rw [hdate, exists?, monthLength, if_neg (by simp), Nat.add_sub_cancel_left, List.getD, hk]
  simp only [Option.getD_some, decide_eq_true_eq]
  omega

/-- The date of a day stands for that day. -/
theorem dayNumber_ofDayNumber (day : Int) : (ofDayNumber day).dayNumber = day := by
  obtain ⟨k, length, -, hle, -, hdate⟩ := ofDayNumber_spec day
  obtain ⟨hfirst, -⟩ := yearOfDay_spec day
  have hbefore : ∀ lengths : List Nat, lengths.foldl (· + ·) 0 = allDays lengths := by
    intro lengths
    rw [← List.sum_eq_foldl, List.sum_eq_foldr, allDays]
  rw [hdate, dayNumber, daysBeforeMonth, Nat.add_sub_cancel_left, hbefore]
  dsimp only
  omega

/-- The month of a date is one of the twelve, and the date is no later than its end. -/
theorem exists?_spec {d : Date} (h : d.exists? = true) :
    ∃ length, (monthLengths (isLeapYear d.year))[d.month - 1]? = some length ∧ 0 < d.month ∧
      1 ≤ d.day ∧ d.day ≤ length := by
  obtain ⟨hday, hlast⟩ := of_decide_eq_true h
  rw [monthLength] at hlast
  split at hlast
  · omega
  · next hmonth =>
    cases hlength : (monthLengths (isLeapYear d.year))[d.month - 1]? with
    | none =>
        rw [List.getD, hlength] at hlast
        exact absurd (Nat.le_trans hday hlast) (by decide)
    | some length =>
        rw [List.getD, hlength] at hlast
        exact ⟨length, rfl, Nat.pos_of_ne_zero hmonth, hday, hlast⟩

theorem month_le {d : Date} (h : d.exists? = true) : d.month ≤ 12 := by
  obtain ⟨length, hlength, -, -, -⟩ := exists?_spec h
  have hlt : d.month - 1 < 12 := (List.getElem?_eq_some_iff.1 hlength).1
  omega

theorem day_le {d : Date} (h : d.exists? = true) : d.day ≤ 31 := by
  obtain ⟨length, hlength, -, -, hday⟩ := exists?_spec h
  exact Nat.le_trans hday (le_of_mem_monthLengths (List.mem_of_getElem? hlength))

end Date

end Pitwall
