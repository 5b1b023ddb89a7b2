import Pitwall.Display.LapTime
import Pitwall.Proofs.Text.Digits

/-!
# Lap times — told by their texts to the millisecond

The text of a lap time has minutes without zeros in front, two digits of seconds below sixty and
three digits of milliseconds (**`ShowsMillis`**). A number of milliseconds is shown by one such text
alone, and such a text shows one number of milliseconds (**`ShowsMillis.text_eq_iff`**). The text of
a time that was set shows that time cut to milliseconds: **`lapTimeText_by_millis`**.
-/

namespace Pitwall

open Text

/-- The text shows so many milliseconds. -/
inductive ShowsMillis : List Char → Nat → Prop where
  /-- Minutes, seconds and milliseconds in digits, with a colon and a point between them. -/
  | parts {minutes seconds millis : List Char}
    (hdigits : ∀ c ∈ minutes ++ seconds ++ millis, c.isDigit = true)
    (hminutes : minutes ≠ []) (hzero : NoLeadingZero minutes)
    (hseconds : seconds.length = 2) (hsixty : digitsValue seconds < 60)
    (hmillis : millis.length = 3) :
    ShowsMillis (minutes ++ ':' :: seconds ++ '.' :: millis)
      (digitsValue minutes * 60000 + digitsValue seconds * 1000 + digitsValue millis)

namespace ShowsMillis

variable {cs cs' : List Char} {n n' : Nat}

/-- **ONE TEXT FOR EACH NUMBER OF MILLISECONDS**, and one number for each text. -/
theorem text_eq_iff (h : ShowsMillis cs n) (h' : ShowsMillis cs' n') : cs = cs' ↔ n = n' := by
  obtain @⟨minutes, seconds, millis, hdigits, hminutes, hzero, hseconds, hsixty, hmillis⟩ := h
  obtain @⟨minutes', seconds', millis', hdigits', hminutes', hzero', hseconds', hsixty',
    hmillis'⟩ := h'
  simp only [List.forall_mem_append] at hdigits hdigits'
  obtain ⟨⟨hm, hs⟩, hmm⟩ := hdigits
  obtain ⟨⟨hm', hs'⟩, hmm'⟩ := hdigits'
  constructor
  · intro h
    -- only digits stand behind the point, and only digits between the colon and the point
    obtain ⟨hfront, rfl⟩ := append_digits_inj (by decide) hmm hmm' h
    obtain ⟨rfl, rfl⟩ := append_digits_inj (by decide) hs hs' hfront
    rfl
  · intro h
    have hthousand : ∀ ds : List Char, ds.length = 3 → (∀ c ∈ ds, c.isDigit = true) →
        digitsValue ds < 1000 := by
      intro ds hlength hds
      have hlt := digitsValue_lt (List.ne_nil_of_length_eq_add_one hlength) hds
      rwa [hlength] at hlt
    have hlt := hthousand millis hmillis hmm
    have hlt' := hthousand millis' hmillis' hmm'
    have hsameMillis : millis = millis' :=
      eq_of_digitsValue_eq hmm hmm' (hmillis.trans hmillis'.symm) (by omega)
    have hsameSeconds : seconds = seconds' :=
      eq_of_digitsValue_eq hs hs' (hseconds.trans hseconds'.symm) (by omega)
    have hsameMinutes : minutes = minutes' := by
      rw [← decimal_digitsValue hminutes hm hzero, ← decimal_digitsValue hminutes' hm' hzero']
      exact congrArg decimal (by omega)
    rw [hsameMinutes, hsameSeconds, hsameMillis]

theorem ne_nil (h : ShowsMillis cs n) : cs ≠ [] := by
  cases h
  simp

end ShowsMillis

/-- **A TIME THAT WAS SET** is shown to the millisecond. -/
theorem showsMillis_lapTimeChars {nanos : Int} (h : 0 < nanos) :
    ShowsMillis (lapTimeChars nanos) (nanos / 1000000).toNat := by
  rw [lapTimeChars, if_neg (Int.not_le.2 h)]
  generalize (nanos / 1000000).toNat = n
  have hparts : ShowsMillis
      (decimal (n / 60000) ++ ':' :: padded 2 (n / 1000 % 60) ++ '.' :: padded 3 (n % 1000))
      (digitsValue (decimal (n / 60000)) * 60000 + digitsValue (padded 2 (n / 1000 % 60)) * 1000 +
        digitsValue (padded 3 (n % 1000))) := by
    have hseconds : n / 1000 % 60 < 60 := Nat.mod_lt _ (by decide)
    have hmillis : n % 1000 < 1000 := Nat.mod_lt _ (by decide)
    refine .parts ?digits (decimal_ne_nil _) (noLeadingZero_decimal _)
      (length_padded (by decide) (by show n / 1000 % 60 < 100; omega)) ?sixty
      (length_padded (by decide) hmillis)
    case digits =>
      simp only [List.forall_mem_append]
      exact ⟨⟨fun _ => isDigit_of_mem_decimal, fun _ => isDigit_of_mem_padded⟩,
        fun _ => isDigit_of_mem_padded⟩
    case sixty =>
      rw [digitsValue_padded]
      exact hseconds
  have hsum : n / 60000 * 60000 + n / 1000 % 60 * 1000 + n % 1000 = n := by omega
  rwa [digitsValue_decimal, digitsValue_padded, digitsValue_padded, hsum] at hparts

/-- **LAP TIMES BY THE MILLISECOND**: no text is shown just for a time that was not set. All others
are shown as minutes without zeros in front, two digits of seconds below sixty and three digits of
milliseconds, which together are the time cut to milliseconds, and no other text of this form shows
these. So two times that were set have the same text exactly if they agree to the millisecond. -/
theorem lapTimeText_by_millis (nanos : Int) :
    (lapTimeText nanos = "" ↔ nanos ≤ 0) ∧
      (0 < nanos → ∀ text, lapTimeText nanos = text ↔
        ShowsMillis text.toList (nanos / 1000000).toNat) ∧
      (0 < nanos → ∀ other, 0 < other →
        (lapTimeText nanos = lapTimeText other ↔ nanos / 1000000 = other / 1000000)) := by
  have hshows : ∀ {nanos : Int}, 0 < nanos →
      ShowsMillis (lapTimeText nanos).toList (nanos / 1000000).toNat := by
    intro nanos hset
    rw [lapTimeText, String.toList_ofList]
    exact showsMillis_lapTimeChars hset
  refine ⟨⟨?empty, ?unset⟩, ?text, ?same⟩
  case empty =>
    intro h
    refine Int.not_lt.1 fun hset => ?_
    exact (hshows hset).ne_nil (congrArg String.toList h)
  case unset =>
    intro h
    rw [lapTimeText, lapTimeChars, if_pos h]
  case text =>
    intro hset text
    constructor
    · rintro rfl
      exact hshows hset
    · intro h
      exact String.toList_inj.1 (((hshows hset).text_eq_iff h).2 rfl)
  case same =>
    intro hset other hother
    rw [← String.toList_inj, (hshows hset).text_eq_iff (hshows hother)]
    have hpos : 0 ≤ nanos / 1000000 := Int.ediv_nonneg (Int.le_of_lt hset) (by decide)
    have hpos' : 0 ≤ other / 1000000 := Int.ediv_nonneg (Int.le_of_lt hother) (by decide)
    omega

/-- Less than a millisecond more does not show. -/
theorem lapTimeText_minute_and_half :
    (0 : Int) < 92345678901 ∧ (0 : Int) < 92345999999 ∧ lapTimeText 92345678901 = "1:32.345" ∧
      lapTimeText 92345678901 = lapTimeText 92345999999 := by
  obtain ⟨-, htext, hsame⟩ := lapTimeText_by_millis 92345678901
  have hshows : ShowsMillis ("1:32.345").toList 92345 :=
    @ShowsMillis.parts ['1'] ['3', '2'] ['3', '4', '5'] (by simp) (by decide)
      (fun _ => Nat.le_refl 1) rfl (by decide) rfl
  exact ⟨by decide, by decide, (htext (by decide) "1:32.345").2 hshows,
    (hsame (by decide) 92345999999 (by decide)).2 (by decide)⟩

end Pitwall
