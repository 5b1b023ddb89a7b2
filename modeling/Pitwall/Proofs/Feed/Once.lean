import Mathlib.Data.List.Induction
import Mathlib.Data.List.Nodup
import Pitwall.Proofs.Feed.Shown

/-!
# Announced once — no collision is taken up twice

A collision that is announced stays among those that count as announced for as long as its alert is
held. Once the alert has been forgotten nothing but the time keeps the collision from being taken up
again: an alert is forgotten when it is over, and by then it is past being shown, now and at any
later time. So in a run of offers and sweeps every collision is taken up at most once:
**`Alerts.taken_once`**.
-/

namespace Pitwall.Alerts

theorem taken_append (a : Alerts) (steps more : List AlertStep) :
    a.taken (steps ++ more) = a.taken steps ++ (a.run steps).taken more := by
  induction steps generalizing a with
  | nil => rfl
  | cons s steps ih => rw [List.cons_append, taken, taken, ih, List.append_assoc]; rfl

/-- Alerts are kept in order in every run. -/
theorem Sound.run {a : Alerts} (h : a.Sound) (steps : List AlertStep) : (a.run steps).Sound := by
  induction steps generalizing a with
  | nil => exact h
  | cons s steps ih => exact ih (h.step s)

/-- What is taken up has not been taken up before: if it is still held, it counts as announced, and
if not, it is not fresh any more. -/
theorem UpToDate.key_notMem_of_taken {a : Alerts} {accepted : List Alert} {s : AlertStep}
    (h : a.UpToDate s.time accepted) {x : Alert} (hx : (a.step s).2 = some x) :
    x.key ∉ accepted.map Alert.key := by
  cases s with
  | sweep now => cases hx
  | offer alert now =>
      intro hmem
      have hstep : (if (a.offer alert now).2 then some alert else none) = some x := hx
      rcases a.offer_cases alert now with hsame | ⟨hnew, hfresh, htaken⟩
      · rw [hsame] at hstep
        cases hstep
      · rw [htaken] at hstep
        obtain rfl : alert = x := Option.some.inj hstep
        obtain ⟨y, hy, hkey⟩ := List.mem_map.1 hmem
        have htime : y.collision.time = alert.collision.time := congrArg AlertKey.time hkey
        have hid : y.id = alert.id := congrArg AlertKey.id hkey
        -- the earlier one is as fresh as this one, so it is still held
        have hyfresh : isFresh now y = true := by
          rw [isFresh, age, htime]
          exact decide_eq_true hfresh
        have hheld : y ∈ a.held :=
          (List.mem_filter.1 (h.fresh.mem_iff.2 (List.mem_filter.2 ⟨hy, hyfresh⟩))).1
        have hseen : a.seen.contains alert.id = true :=
          (h.sound.seen _).2 (hid ▸ List.mem_map_of_mem hheld)
        rw [hnew] at hseen
        cases hseen

/-- No collision is taken up twice. -/
theorem nodup_taken {steps : List AlertStep}
    (hmono : (steps.map AlertStep.time).Pairwise (· ≤ ·))
    (hleap : ∀ t ∈ steps.map AlertStep.time, t.isLeap = false) :
    ((taken {} steps).map Alert.key).Nodup := by
  induction steps using List.reverseRecOn with
  | nil => exact List.nodup_nil
  | append_singleton steps s ih =>
      rw [List.map_append] at hmono hleap
      have hbefore := ih (List.pairwise_append.1 hmono).1
        fun t ht => hleap t (List.mem_append_left _ ht)
      have hnow : (run {} steps).UpToDate s.time ([] ++ taken {} steps) :=
        UpToDate.run hmono hleap fun t _ => upToDate_empty t
      have hlast : (run {} steps).taken [s] = ((run {} steps).step s).2.toList :=
        List.append_nil _
      rw [taken_append, hlast, List.map_append]
      cases hx : ((run {} steps).step s).2 with
      | none =>
          rw [Option.toList_none, List.map_nil, List.append_nil]
          exact hbefore
      | some x =>
          rw [Option.toList_some, List.map_singleton, ← List.concat_eq_append, List.nodup_concat]
          exact ⟨hnow.key_notMem_of_taken hx, hbefore⟩

/-- **ANNOUNCED ONCE**: when collisions are offered and old ones forgotten in any order, at times
that do not go back, each of them, as told by driver, number and time, is taken up at most once. All
the time no driver's collision of a number is held twice, and those that count as announced are
exactly those that are held. -/
theorem taken_once {steps : List AlertStep} (hmono : (steps.map AlertStep.time).Pairwise (· ≤ ·))
    (hleap : ∀ t ∈ steps.map AlertStep.time, t.isLeap = false) :
    (∀ k : AlertKey, ((taken {} steps).map Alert.key).count k ≤ 1) ∧
      ∀ before, before <+: steps →
        ((run {} before).held.map Alert.id).Nodup ∧
          ∀ i, (run {} before).seen.contains i = true ↔ i ∈ (run {} before).held.map Alert.id := by
  constructor
  · exact List.nodup_iff_count_le_one.1 (nodup_taken hmono hleap)
  · intro before _
    have hsound := sound_empty.run before
    exact ⟨hsound.ids, hsound.seen⟩

/-- A collision is offered, offered again, forgotten and offered once more; another driver has one
of the same number. -/
theorem taken_once_of_offered_again :
    let noon : Instant := ⟨63000000000, 0, by decide, by decide, by decide, by decide⟩
    let later : Instant := ⟨63000000012, 0, by decide, by decide, by decide, by decide⟩
    let ann : Alert := ⟨⟨"a"⟩, "Ann", { id := 1, time := noon }⟩
    let bob : Alert := ⟨⟨"b"⟩, "Bob", { id := 1, time := noon }⟩
    let steps : List AlertStep :=
      [.offer ann noon, .offer bob noon, .offer ann noon, .sweep later, .offer ann later]
    (steps.map AlertStep.time).Pairwise (· ≤ ·) ∧
      (∀ t ∈ steps.map AlertStep.time, t.isLeap = false) ∧
      taken {} steps = [ann, bob] ∧ (run {} (steps.take 3)).held = [ann, bob] ∧
      (run {} (steps.take 4)).held = [] ∧ ((taken {} steps).map Alert.key).count ann.key ≤ 1 ∧
      ((run {} (steps.take 3)).held.map Alert.id).Nodup := by
  intro noon later ann bob steps
  have hmono : (steps.map AlertStep.time).Pairwise (· ≤ ·) := by decide
  have hleap : ∀ t ∈ steps.map AlertStep.time, t.isLeap = false := by decide
  obtain ⟨honce, hheld⟩ := taken_once hmono hleap
  exact ⟨hmono, hleap, by decide, by decide, by decide, honce ann.key,
    (hheld _ (List.take_prefix 3 steps)).1⟩

end Pitwall.Alerts
