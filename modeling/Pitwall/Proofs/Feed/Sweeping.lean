import Pitwall.Proofs.Data.Suffix
import Pitwall.Proofs.Feed.Once

/-!
# Sweeping — what is forgotten, and what stands in its way

A sweep forgets alerts from the front and stops at the first one that is not over. So it forgets
just those that are over if and only if none of them stands behind one that is not.

The alerts stand in the order of their instants, and an age is measured on a clock that a leap
second puts back by a second (`Instant.measuredFrom`). So an alert may come to stand behind one that
is over later than itself, and is forgotten too late, though by less than a second:
**`Alerts.sweeps_from_front`** has the exact condition, and **`Alerts.overdue_after_leap_second`** a
case.
-/

namespace Pitwall

namespace Alerts

variable {a : Alerts} {x y : Alert} {now : Instant}

/-! ## Sweeping the front -/

/-- Whether a collision is so old that its alert is to be forgotten. -/
def isOverdue (now : Instant) (x : Alert) : Bool := decide (keptFor ≤ age x now)

theorem isOverdue_iff :
    isOverdue now x = true ↔ x.collision.time.measuredFrom + keptFor ≤ now.onClock := by
  rw [isOverdue, decide_eq_true_iff]
  exact Instant.le_elapsed_iff (by decide) (by decide)

theorem not_isOverdue_eq (now : Instant) (x : Alert) :
    (!isOverdue now x) = decide (age x now < keptFor) := by
  rw [isOverdue, ← decide_not]
  exact decide_eq_decide.2 Int.not_le

/-- A sweep leaves the alerts from the first one on that is not over. -/
theorem Sound.held_sweep (h : a.Sound) (now : Instant) :
    (a.sweep now).1.held = a.held.dropWhile (isOverdue now) := by
  have hkeys : ∀ e ∈ a.entries.entries, isOver now e = isOverdue now e.2.alert := by
    intro e he
    rw [isOver, h.key_eq he]
    rfl
  have hsweep : (a.sweep now).1.held =
      (a.entries.entries.dropWhile (isOver now)).map (fun e => e.2.alert) := map_alert_hideFirst ..
  rw [hsweep, held]
  generalize a.entries.entries = es at hkeys
  induction es with
  | nil => rfl
  | cons e es ih =>
      have he := hkeys e List.mem_cons_self
      rw [List.map_cons, List.dropWhile_cons, List.dropWhile_cons, he]
      split
      · exact ih fun f hf => hkeys f (List.mem_cons_of_mem e hf)
      · rfl

/-- It tells how many it has forgotten. -/
theorem length_sweep (a : Alerts) (now : Instant) :
    (a.sweep now).2 + (a.sweep now).1.held.length = a.held.length := by
  have hlength := congrArg List.length (a.held_eq_append_sweep now)
  rw [List.length_append, List.length_map] at hlength
  exact hlength.symm

/-- Nothing is forgotten before its time. -/
theorem Sound.mem_sweep (h : a.Sound) (hx : x ∈ a.held) (hyoung : age x now < keptFor) :
    x ∈ (a.sweep now).1.held := by
  rw [← List.takeWhile_append_dropWhile (p := isOverdue now) (l := a.held), List.mem_append,
    ← h.held_sweep] at hx
  refine hx.resolve_left fun hended => ?_
  have hover : keptFor ≤ age x now :=
    of_decide_eq_true (List.all_eq_true.1 List.all_takeWhile x hended)
  omega

/-- What is left is not over, or has been so for less than a second. -/
theorem Sound.age_lt_of_mem_sweep (h : a.Sound) (hx : x ∈ (a.sweep now).1.held) :
    age x now < keptFor + nanosPerSecond := by
  have htimes := h.times.sublist (List.dropWhile_sublist (isOverdue now))
  rw [h.held_sweep] at hx
  -- the first one that is left is not over, and the clock has gone back by less than a second
  cases hleft : a.held.dropWhile (isOverdue now) with
  | nil =>
      rw [hleft] at hx
      cases hx
  | cons y ys =>
      have hy : ¬ y.collision.time.measuredFrom + keptFor ≤ now.onClock := by
        rw [← isOverdue_iff]
        have hhead := List.head?_dropWhile_not (isOverdue now) a.held
        rw [hleft] at hhead
        simpa using hhead
      have hlt : y.collision.time.measuredFrom <
          x.collision.time.measuredFrom + nanosPerSecond := by
        rw [hleft] at hx htimes
        rcases List.mem_cons.1 hx with rfl | hx
        · exact Int.lt_add_of_pos_right _ (by decide)
        · exact Instant.measuredFrom_lt_of_le (List.rel_of_pairwise_cons htimes hx)
      refine Int.not_le.1 fun hage => hy ?_
      have hclock := (Instant.le_elapsed_iff (by decide) (by decide)).1 hage
      omega

/-- A sweep forgets just what is over, exactly if nothing that is over stands behind something that
is not. -/
theorem Sound.sweep_exact_iff (h : a.Sound) (now : Instant) :
    (a.sweep now).1.held = a.held.filter (fun x => age x now < keptFor) ↔
      a.held.Pairwise (fun x y => isOverdue now y = true → isOverdue now x = true) := by
  simp only [← not_isOverdue_eq, h.held_sweep]
  exact dropWhile_eq_filter_iff

/-- Every sweep forgets just what is over, exactly if the clock does not go back. -/
theorem Sound.sweeps_exact_iff (h : a.Sound) :
    (∀ now, (a.sweep now).1.held = a.held.filter (fun x => age x now < keptFor)) ↔
      a.held.Pairwise (fun x y =>
        x.collision.time.measuredFrom ≤ y.collision.time.measuredFrom) := by
  simp only [h.sweep_exact_iff]
  constructor
  · intro hall
    refine List.pairwise_iff_forall_sublist.2 fun {x y} hxy => Int.not_lt.1 fun hback => ?_
    have hle := List.pairwise_iff_forall_sublist.1 h.times hxy
    -- at the moment at which the later one is over, the earlier one is not
    obtain ⟨now, hnow⟩ := Instant.exists_later (d := keptFor) hle hback (by decide) (by decide)
    have hover : isOverdue now y = true := isOverdue_iff.2 (Int.le_of_eq hnow.symm)
    have hfront := isOverdue_iff.1 (List.pairwise_iff_forall_sublist.1 (hall now) hxy hover)
    omega
  · intro hclock now
    refine hclock.imp fun {x y} hxy hy => ?_
    rw [isOverdue_iff] at hy ⊢
    omega

/-- **A SWEEP TAKES FROM THE FRONT**. In every run of offers and sweeps a sweep forgets a front part
of the alerts, counts it, and forgets nothing before its time; and what it leaves is younger than
thirteen seconds. All sweeps forget just what is twelve seconds old exactly if the clock on which
ages are measured does not go back from one alert to a later one; and without collisions in leap
seconds it does not. -/
theorem sweeps_from_front (steps : List AlertStep) :
    let a := run {} steps
    (∀ now, let c := (a.sweep now).1
      c.held <:+ a.held ∧ (a.sweep now).2 + c.held.length = a.held.length ∧
      (∀ x ∈ a.held, age x now < keptFor → x ∈ c.held) ∧
      ∀ x ∈ c.held, age x now < keptFor + nanosPerSecond) ∧
    ((∀ now, (a.sweep now).1.held = a.held.filter (fun x => age x now < keptFor)) ↔
      a.held.Pairwise (fun x y =>
        x.collision.time.measuredFrom ≤ y.collision.time.measuredFrom)) ∧
    ((∀ x ∈ a.held, x.collision.time.isLeap = false) →
      ∀ now, (a.sweep now).1.held = a.held.filter (fun x => age x now < keptFor)) := by
  intro a
  have hsound : a.Sound := sound_empty.run steps
  refine ⟨fun now => ⟨?_, a.length_sweep now, fun x => hsound.mem_sweep,
    fun x => hsound.age_lt_of_mem_sweep⟩, hsound.sweeps_exact_iff, ?_⟩
  · rw [hsound.held_sweep]
    exact List.dropWhile_suffix _
  · intro hplain
    exact hsound.sweeps_exact_iff.2 (hsound.clock hplain)

/-- One collision happens seconds before a leap second within a day and one in it: every sweep
forgets just what is over. -/
theorem sweeps_from_front_into_leap_second :
    let before : Instant := ⟨63000000050, 0, by decide, by decide, by decide, by decide⟩
    let leap : Instant := ⟨63000000059, 1500000000, by decide, by decide, by decide, by decide⟩
    let ann : Alert := ⟨⟨"a"⟩, "Ann", { id := 1, time := before }⟩
    let bob : Alert := ⟨⟨"b"⟩, "Bob", { id := 1, time := leap }⟩
    let a := run {} [.offer ann before, .offer bob leap]
    a.held = [ann, bob] ∧
      ∀ now, (a.sweep now).1.held = a.held.filter (fun x => age x now < keptFor) := by
  intro before leap ann bob a
  have hheld : a.held = [ann, bob] := by decide
  refine ⟨hheld, (sweeps_from_front [.offer ann before, .offer bob leap]).2.1.2 ?_⟩
  show a.held.Pairwise _
  rw [hheld]
  decide

/-- It is not true that a sweep forgets everything that is over. One collision happens at the end of
the leap second that ends a day, and one directly afterwards. Twelve seconds later the second one is
over, but the first one is not, and stands before it. -/
theorem overdue_after_leap_second :
    ¬ ∀ (steps : List AlertStep) (now : Instant),
      let a := run {} steps
      let c := (a.sweep now).1
      c.held = a.held.filter (fun x => age x now < keptFor) ∧
        (a.sweep now).2 + c.held.length = a.held.length := by
  intro h
  let leap : Instant :=
    ⟨63618825599, 1900000000, by decide, by decide, by decide, by decide⟩
  let next : Instant :=
    ⟨63618825600, 100000000, by decide, by decide, by decide, by decide⟩
  let now : Instant :=
    ⟨63618825612, 500000000, by decide, by decide, by decide, by decide⟩
  let ann : Alert := ⟨⟨"a"⟩, "Ann", { id := 1, time := leap }⟩
  let bob : Alert := ⟨⟨"b"⟩, "Bob", { id := 1, time := next }⟩
  have hexact := (h [.offer ann next, .offer bob next] now).1
  have hboth : ((run {} [.offer ann next, .offer bob next]).sweep now).1.held = [ann, bob] := by
    decide
  have hyoung : (run {} [.offer ann next, .offer bob next]).held.filter
      (fun x => age x now < keptFor) = [ann] := by decide
  rw [hboth, hyoung] at hexact
  cases hexact

end Alerts

end Pitwall
