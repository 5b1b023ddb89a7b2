import Mathlib.Data.List.Nodup
import Pitwall.Proofs.Data.Sorting
import Pitwall.Proofs.Data.Suffix
import Pitwall.Proofs.Feed.Alerts
import Pitwall.Proofs.Feed.Held

/-!
# Shown alerts — the newest ones that are fresh

An alert is hidden when six newer ones are shown, and it is never shown again. That loses nothing
while the alerts that took its place, which are newer, are fresh for as long as it would have been:
then the newest six of the fresh alerts are shown, after any run of offers and sweeps. The clock on
which ages are measured goes back in a leap second, though, and an alert from before may outlive
those that took its place. **`Alerts.shown_run`** says what is shown and when it is the newest six,
and **`Alerts.newest_hidden_after_leap_second`** is a case in which it is not.

What carries the run is that the alerts are **`UpToDate`**: of the newest six that are held none is
hidden, and no more than six are shown. Time only makes fewer alerts fresh, offering and sweeping
hide the oldest ones that are too many, and hiding never reaches the newest six
(**`drop_hideFirst`**).
-/

namespace Pitwall

namespace Alerts

/-- Whether a collision is recent enough to be shown. -/
def isFresh (now : Instant) (a : Alert) : Bool := decide (age a now < shownFor)

/-- The newest of some alerts that are fresh, oldest first, and no more than are shown. -/
def newest (now : Instant) (alerts : List Alert) : List Alert :=
  let fresh := (alerts.filter (isFresh now)).mergeSort (fun a b => compare a.key b.key != .gt)
  fresh.drop (fresh.length - mostShown)

/-! ## Time -/

section Later

variable {now later : Instant} (hnow : now.isLeap = false) (hlater : later.isLeap = false)
  (hle : now ≤ later)

include hnow hlater hle

/-- What is fresh later on is fresh now. -/
theorem isFresh_of_later {a : Alert} (h : isFresh later a = true) : isFresh now a = true := by
  rw [isFresh, decide_eq_true_iff] at h ⊢
  refine Int.not_le.1 fun hover => Int.not_le.2 h ?_
  exact Instant.le_elapsed_later hnow hlater hle (by decide) (by decide) hover

theorem filter_isFresh_later (l : List Alert) :
    (l.filter (isFresh now)).filter (isFresh later) = l.filter (isFresh later) := by
  rw [List.filter_filter]
  refine List.filter_congr fun a _ => ?_
  cases h : isFresh later a with
  | false => rfl
  | true => rw [isFresh_of_later hnow hlater hle h, Bool.and_self]

/-- No alert comes to be shown by waiting. -/
theorem length_shown_later (es : List AlertEntry) :
    (es.filter (isShown later)).length ≤ (es.filter (isShown now)).length := by
  rw [← List.countP_eq_length_filter, ← List.countP_eq_length_filter]
  refine List.countP_mono_left fun e _ he => ?_
  obtain ⟨hhidden, hfresh⟩ := Bool.and_eq_true_iff.1 he
  exact Bool.and_eq_true_iff.2 ⟨hhidden, isFresh_of_later hnow hlater hle hfresh⟩

end Later

/-! ## Hiding -/

/-- Each step of hiding takes one alert off those that are shown. -/
theorem length_shown_hideFirst (now : Instant) (n : Nat) (es : List (AlertKey × AlertEntry)) :
    (((hideFirst now n es).map Prod.snd).filter (isShown now)).length =
      ((es.map Prod.snd).filter (isShown now)).length - n := by
  induction es generalizing n with
  | nil => cases n <;> simp [hideFirst]
  | cons e es ih =>
      cases n with
      | zero => rfl
      | succ n =>
          rw [hideFirst]
          split
          · next hshown =>
            have hnow : isShown now { e.2 with hidden := true } = false := rfl
            rw [List.map_cons, List.map_cons, List.filter_cons_of_neg (by simp [hnow]), ih,
              List.filter_cons_of_pos hshown, List.length_cons, Nat.add_sub_add_right]
          · next hshown =>
            rw [List.map_cons, List.map_cons, List.filter_cons_of_neg hshown, ih,
              List.filter_cons_of_neg hshown]

/-- Hiding does not reach the last entries while more alerts than those are shown. -/
theorem drop_hideFirst {now : Instant} {n m : Nat} {es : List (AlertKey × AlertEntry)}
    (h : n + m ≤ ((es.map Prod.snd).filter (isShown now)).length) :
    (hideFirst now n es).drop (es.length - m) = es.drop (es.length - m) := by
  induction es generalizing n with
  | nil => cases n <;> rfl
  | cons e es ih =>
      cases n with
      | zero => rfl
      | succ n =>
          have hshown := List.length_filter_le (isShown now) (es.map Prod.snd)
          rw [List.length_map] at hshown
          rw [List.map_cons] at h
          rw [hideFirst, List.length_cons]
          -- what is hidden stands before the last entries, so dropping goes past it
          split
          · next he =>
            rw [List.filter_cons_of_pos he, List.length_cons] at h
            rw [Nat.sub_add_comm (by omega), List.drop_succ_cons, List.drop_succ_cons]
            exact ih (by omega)
          · next he =>
            rw [List.filter_cons_of_neg he] at h
            rw [Nat.sub_add_comm (by omega), List.drop_succ_cons, List.drop_succ_cons]
            exact ih h

theorem length_values_hideExcess (now : Instant) (t : Table AlertKey AlertEntry) :
    (hideExcess now t).values.length = t.values.length := by
  have hkeys := congrArg List.length (keys_hideFirst now
    ((t.values.filter (isShown now)).length - mostShown) t.entries)
  rw [List.length_map, List.length_map] at hkeys
  rw [Table.values, Table.values, List.length_map, List.length_map]
  exact hkeys

/-- Afterwards no more than six alerts are shown. -/
theorem length_shown_hideExcess (now : Instant) (t : Table AlertKey AlertEntry) :
    ((hideExcess now t).values.filter (isShown now)).length ≤ mostShown := by
  show (((hideFirst now _ t.entries).map Prod.snd).filter (isShown now)).length ≤ mostShown
  rw [length_shown_hideFirst]
  show (t.values.filter (isShown now)).length - ((t.values.filter (isShown now)).length - mostShown)
    ≤ mostShown
  omega

/-- The newest six are left as they are. -/
theorem drop_hideExcess (now : Instant) (t : Table AlertKey AlertEntry) :
    (hideExcess now t).values.drop ((hideExcess now t).values.length - mostShown) =
      t.values.drop (t.values.length - mostShown) := by
  rw [length_values_hideExcess, Table.values, Table.values, List.length_map]
  show ((hideFirst now ((t.values.filter (isShown now)).length - mostShown) t.entries).map
    Prod.snd).drop _ = (t.entries.map Prod.snd).drop _
  by_cases hmost : mostShown ≤ (t.values.filter (isShown now)).length
  · rw [← List.map_drop, ← List.map_drop]
    exact congrArg (List.map Prod.snd)
      (drop_hideFirst (Nat.le_of_eq (Nat.sub_add_cancel hmost)))
  · rw [Nat.sub_eq_zero_of_le (Nat.le_of_not_le hmost)]
    rw [hideFirst]

/-! ## Runs -/

/-- The alerts that are held are the right ones at a time, given all that have been taken up. -/
structure UpToDate (a : Alerts) (now : Instant) (accepted : List Alert) : Prop where
  sound : a.Sound
  /-- What is held has been taken up. -/
  subset : a.held ⊆ accepted
  /-- What is fresh is still held. -/
  fresh : (a.held.filter (isFresh now)).Perm (accepted.filter (isFresh now))
  /-- The newest six are not hidden. -/
  newest : ∀ e ∈ a.entries.values.drop (a.entries.values.length - mostShown), e.hidden = false
  /-- No more than six are shown. -/
  most : (a.entries.values.filter (isShown now)).length ≤ mostShown

theorem upToDate_empty (now : Instant) : ({} : Alerts).UpToDate now [] where
  sound := sound_empty
  subset := List.nil_subset _
  fresh := .refl _
  newest := fun _ h => nomatch h
  most := Nat.zero_le _

variable {a : Alerts} {now : Instant} {accepted : List Alert}

/-- The alerts stay up to date while time passes. -/
theorem UpToDate.later (h : a.UpToDate now accepted) {later : Instant}
    (hnow : now.isLeap = false) (hlater : later.isLeap = false) (hle : now ≤ later) :
    a.UpToDate later accepted where
  sound := h.sound
  subset := h.subset
  fresh := by
    rw [← filter_isFresh_later hnow hlater hle a.held,
      ← filter_isFresh_later hnow hlater hle accepted]
    exact h.fresh.filter _
  newest := h.newest
  most := Nat.le_trans (length_shown_later hnow hlater hle _) h.most

theorem UpToDate.offer (h : a.UpToDate now accepted) (alert : Alert) :
    (a.step (.offer alert now)).1.UpToDate now
      (accepted ++ (a.step (.offer alert now)).2.toList) := by
  have hstep : a.step (.offer alert now) =
      ((a.offer alert now).1, if (a.offer alert now).2 then some alert else none) := rfl
  rw [hstep]
  rcases a.offer_cases alert now with hsame | ⟨hnew, -, htaken⟩
  · rw [hsame]
    show a.UpToDate now (accepted ++ [])
    rw [List.append_nil]
    exact h
  · have hheld := h.sound.held_offer hnew (congrArg (fun p => p.1.entries) htaken)
    have hadded : (alert :: accepted).Perm (accepted ++ [alert]) :=
      (List.perm_append_singleton alert accepted).symm
    have haccepted : accepted ++ (if (a.offer alert now).2 then some alert else none).toList =
        accepted ++ [alert] := by
      rw [htaken]
      rfl
    rw [haccepted]
    refine ⟨h.sound.offer alert now, ?subset, ?fresh, ?newest, ?most⟩
    case subset =>
      intro x hx
      rw [← hadded.mem_iff, List.mem_cons]
      exact (List.mem_cons.1 (hheld.mem_iff.1 hx)).imp_right (fun hx => h.subset hx)
    case fresh =>
      refine (hheld.filter _).trans (List.Perm.trans ?_ (hadded.filter _))
      rw [List.filter_cons, List.filter_cons]
      split
      · exact h.fresh.cons alert
      · exact h.fresh
    case newest =>
      obtain ⟨before, after, hentries, hinsert⟩ := h.sound.exists_entries_insert hnew
      have hold : a.entries.values = before.map Prod.snd ++ after.map Prod.snd := by
        rw [Table.values, hentries, List.map_append]
      have hvalues : (a.entries.insert alert.key ⟨alert, false⟩).values =
          before.map Prod.snd ++ ⟨alert, false⟩ :: after.map Prod.snd := by
        rw [Table.values, hinsert, List.map_append, List.map_cons]
      intro e he
      rw [htaken, drop_hideExcess, hvalues] at he
      -- the new alert is not hidden, and it takes the place of one of the newest at most
      rcases mem_last_insert he with rfl | he
      · rfl
      · exact h.newest e (hold ▸ he)
    case most =>
      rw [htaken]
      exact length_shown_hideExcess now _

theorem UpToDate.sweep (h : a.UpToDate now accepted) :
    (a.sweep now).1.UpToDate now accepted := by
  have hheld := a.held_eq_append_sweep now
  refine ⟨h.sound.sweep now, ?subset, ?fresh, ?newest, length_shown_hideExcess now _⟩
  case subset =>
    intro x hx
    refine h.subset ?_
    rw [hheld]
    exact List.mem_append_right _ hx
  case fresh =>
    -- what is forgotten has not been fresh for a while
    have hnone : ((a.entries.entries.takeWhile (isOver now)).map (fun e => e.2.alert)).filter
        (isFresh now) = [] := by
      refine List.filter_eq_nil_iff.2 ?_
      intro x hx
      obtain ⟨e, he, rfl⟩ := List.mem_map.1 hx
      have hover := of_decide_eq_true (List.all_eq_true.1 List.all_takeWhile e he)
      have htime : e.1.time = e.2.alert.collision.time :=
        congrArg AlertKey.time (h.sound.key_eq ((List.takeWhile_sublist _).subset he))
      rw [htime] at hover
      rw [isFresh, decide_eq_true_iff, Int.not_lt]
      have hkept : shownFor ≤ keptFor := by decide
      exact Int.le_trans hkept hover
    have hsame : (a.sweep now).1.held.filter (isFresh now) = a.held.filter (isFresh now) := by
      rw [hheld, List.filter_append, hnone, List.nil_append]
    rw [hsame]
    exact h.fresh
  case newest =>
    have hsuffix : (a.entries.entries.dropWhile (isOver now)).map Prod.snd <:+ a.entries.values :=
      (List.dropWhile_suffix _).map Prod.snd
    have hdrop := drop_hideExcess now
      { entries := a.entries.entries.dropWhile (isOver now)
        ascending := a.entries.ascending.sublist ((List.dropWhile_sublist _).map Prod.fst) }
    intro e he
    exact h.newest e ((last_suffix_last hsuffix mostShown).subset (hdrop ▸ he))

theorem UpToDate.step (s : AlertStep) (h : a.UpToDate s.time accepted) :
    (a.step s).1.UpToDate s.time (accepted ++ (a.step s).2.toList) := by
  cases s with
  | offer alert now => exact h.offer alert
  | sweep now =>
      show (a.sweep now).1.UpToDate now (accepted ++ [])
      rw [List.append_nil]
      exact h.sweep

/-- The alerts are up to date at the end of a run. -/
theorem UpToDate.run {steps : List AlertStep}
    (hmono : (steps.map AlertStep.time ++ [now]).Pairwise (· ≤ ·))
    (hleap : ∀ t ∈ steps.map AlertStep.time ++ [now], t.isLeap = false)
    (h : ∀ t ∈ steps.map AlertStep.time ++ [now], a.UpToDate t accepted) :
    (a.run steps).UpToDate now (accepted ++ a.taken steps) := by
  induction steps generalizing a accepted with
  | nil =>
      show a.UpToDate now (accepted ++ [])
      rw [List.append_nil]
      exact h now List.mem_cons_self
  | cons s steps ih =>
      rw [List.map_cons, List.cons_append, List.pairwise_cons] at hmono
      rw [List.map_cons, List.cons_append] at hleap h
      have hstep := (h s.time List.mem_cons_self).step s
      rw [taken, ← List.append_assoc]
      refine ih hmono.2 (fun t ht => hleap t (List.mem_cons_of_mem _ ht)) fun t ht => ?_
      exact hstep.later (hleap _ List.mem_cons_self) (hleap t (List.mem_cons_of_mem _ ht))
        (hmono.1 t ht)

/-! ## What is shown -/

/-- The entries of fresh alerts, in the order of time. -/
def freshEntries (a : Alerts) (now : Instant) : List AlertEntry :=
  a.entries.values.filter (fun e => isFresh now e.alert)

/-- What is shown is what is fresh and not hidden. -/
theorem shown_eq (a : Alerts) (now : Instant) :
    a.shown now = ((a.freshEntries now).filter (fun e => !e.hidden)).map AlertEntry.alert := by
  rw [freshEntries, List.filter_filter]
  rfl

theorem held_eq_map_values (a : Alerts) : a.held = a.entries.values.map AlertEntry.alert := by
  rw [held, Table.values, List.map_map]
  rfl

theorem map_alert_freshEntries (a : Alerts) (now : Instant) :
    (a.freshEntries now).map AlertEntry.alert = a.held.filter (isFresh now) := by
  rw [held_eq_map_values, List.filter_map]
  rfl

/-- Whether an alert is fresh can be read off the clock. -/
theorem isFresh_iff {x : Alert} :
    isFresh now x = true ↔ now.onClock < x.collision.time.measuredFrom + shownFor := by
  rw [isFresh, decide_eq_true_iff, age, ← Int.not_le, ← Int.not_le]
  exact not_congr (Instant.le_elapsed_iff (by decide) (by decide))

/-- Fresh alerts stand at the end, as far as the clock goes on: the younger ones stand behind the
older ones. -/
theorem freshEntries_suffix
    (hclock : a.held.Pairwise (fun x y =>
      x.collision.time.measuredFrom ≤ y.collision.time.measuredFrom)) :
    a.freshEntries now <:+ a.entries.values := by
  rw [held_eq_map_values, List.pairwise_map] at hclock
  refine filter_suffix (hclock.imp ?_)
  intro d e hle hfresh
  rw [isFresh_iff] at hfresh ⊢
  omega

/-- An alert is held in one entry only. -/
theorem Sound.eq_of_alert_eq (h : a.Sound) {d e : AlertEntry} (hd : d ∈ a.entries.values)
    (he : e ∈ a.entries.values) (heq : d.alert = e.alert) : d = e := by
  have hnodup : (a.entries.values.map AlertEntry.alert).Nodup := by
    rw [← held_eq_map_values]
    refine h.ascending.imp fun {x y} hlt hxy => ?_
    rw [hxy, Std.ReflOrd.compare_self] at hlt
    cases hlt
  exact List.inj_on_of_nodup_map hnodup hd he heq

/-- What is shown is fresh and has been taken up. -/
theorem UpToDate.mem_of_mem_shown (h : a.UpToDate now accepted) {x : Alert}
    (hx : x ∈ a.shown now) : x ∈ accepted ∧ isFresh now x = true := by
  obtain ⟨e, he, rfl⟩ := List.mem_map.1 hx
  obtain ⟨hvalue, hshown⟩ := List.mem_filter.1 he
  refine ⟨h.subset ?_, (Bool.and_eq_true_iff.1 hshown).2⟩
  rw [held_eq_map_values]
  exact List.mem_map_of_mem hvalue

/-- It is shown oldest first. -/
theorem Sound.shown_ascending (h : a.Sound) (now : Instant) :
    (a.shown now).Pairwise (fun x y => compare x.key y.key = .lt) := by
  have hheld := h.ascending
  rw [held_eq_map_values] at hheld
  exact hheld.sublist (List.filter_sublist.map _)

/-- The newest ones that are fresh are the last of the fresh entries. -/
theorem UpToDate.newest_eq (h : a.UpToDate now accepted) :
    Alerts.newest now accepted =
      ((a.freshEntries now).drop ((a.freshEntries now).length - mostShown)).map
        AlertEntry.alert := by
  have hsorted : (a.freshEntries now).map AlertEntry.alert =
      (accepted.filter (isFresh now)).mergeSort (fun x y => compare x.key y.key != .gt) := by
    have : Std.TransCmp (fun x y : Alert => compare x.key y.key) :=
      inferInstanceAs (Std.TransCmp (compareOn Alert.key))
    rw [map_alert_freshEntries]
    exact eq_mergeSort_of_pairwise_lt (h.sound.ascending.sublist List.filter_sublist) h.fresh
  rw [Alerts.newest, ← hsorted, List.length_map, List.map_drop]

/-- Alerts that are up to date show the newest ones, exactly if none of these has been hidden. -/
theorem UpToDate.shown_eq_newest_iff (h : a.UpToDate now accepted) :
    a.shown now = Alerts.newest now accepted ↔
      ∀ e ∈ a.entries.values, e.alert ∈ Alerts.newest now accepted → e.hidden = false := by
  constructor
  · intro heq e he hnewest
    rw [← heq] at hnewest
    obtain ⟨d, hd, hde⟩ := List.mem_map.1 hnewest
    obtain ⟨hvalue, hshown⟩ := List.mem_filter.1 hd
    have hopen : (!d.hidden) = true := (Bool.and_eq_true_iff.1 hshown).1
    rw [← h.sound.eq_of_alert_eq hvalue he hde]
    simpa using hopen
  · intro hall
    have hlast : ∀ e ∈ (a.freshEntries now).drop ((a.freshEntries now).length - mostShown),
        (!e.hidden) = true := by
      intro e he
      have hvalue : e ∈ a.entries.values := List.mem_of_mem_filter (List.mem_of_mem_drop he)
      have hnewest : e.alert ∈ Alerts.newest now accepted := by
        rw [h.newest_eq]
        exact List.mem_map_of_mem he
      rw [hall e hvalue hnewest]
      rfl
    have hmost : ((a.freshEntries now).filter (fun e => !e.hidden)).length ≤ mostShown := by
      rw [freshEntries, List.filter_filter]
      exact h.most
    rw [shown_eq, filter_eq_last hlast hmost, h.newest_eq]

/-- While the clock goes on, none of the newest ones is hidden. -/
theorem UpToDate.shown_eq_newest (h : a.UpToDate now accepted)
    (hclock : a.held.Pairwise (fun x y =>
      x.collision.time.measuredFrom ≤ y.collision.time.measuredFrom)) :
    a.shown now = Alerts.newest now accepted := by
  refine h.shown_eq_newest_iff.2 fun e he hnewest => h.newest e ?_
  rw [h.newest_eq] at hnewest
  obtain ⟨d, hd, hde⟩ := List.mem_map.1 hnewest
  -- the last of the fresh entries are among the last of all
  have hlast := (last_suffix_last (freshEntries_suffix hclock) mostShown).subset hd
  rwa [h.sound.eq_of_alert_eq (List.mem_of_mem_drop hlast) he hde] at hlast

/-- **WHAT IS SHOWN**: after offers and sweeps at times that do not go back, what is shown is fresh
and has been taken up, oldest first, and never more than six. These are the newest six of the fresh
alerts that have been taken up, exactly if none of the newest six has been hidden. None has where
the clock on which ages are measured does not go back from one alert to a later one; and without
collisions in leap seconds it does not. -/
theorem shown_run {steps : List AlertStep} {now : Instant}
    (hmono : (steps.map AlertStep.time ++ [now]).Pairwise (· ≤ ·))
    (hleap : ∀ t ∈ steps.map AlertStep.time ++ [now], t.isLeap = false) :
    let a := run {} steps
    let accepted := taken {} steps
    ((a.shown now).length ≤ mostShown ∧
      (∀ x ∈ a.shown now, x ∈ accepted ∧ isFresh now x = true) ∧
      (a.shown now).Pairwise (fun x y => compare x.key y.key = .lt)) ∧
    (a.shown now = newest now accepted ↔
      ∀ e ∈ a.entries.values, e.alert ∈ newest now accepted → e.hidden = false) ∧
    (a.held.Pairwise (fun x y => x.collision.time.measuredFrom ≤ y.collision.time.measuredFrom) →
      a.shown now = newest now accepted) ∧
    ((∀ x ∈ accepted, x.collision.time.isLeap = false) →
      a.shown now = newest now accepted) := by
  intro a accepted
  have hrun : a.UpToDate now accepted := UpToDate.run hmono hleap fun t _ => upToDate_empty t
  refine ⟨⟨?most, fun x => hrun.mem_of_mem_shown, hrun.sound.shown_ascending now⟩,
    hrun.shown_eq_newest_iff, hrun.shown_eq_newest, fun hplain => ?plain⟩
  case most =>
    rw [shown, List.length_map]
    exact hrun.most
  case plain =>
    exact hrun.shown_eq_newest (hrun.sound.clock fun x hx => hplain x (hrun.subset hx))

/-- Seven collisions come in out of order, the last one from a leap second within a day, and the
feed is swept before it is looked at: the newest six are shown. -/
theorem shown_of_seven :
    let noon : Instant := ⟨63000000055, 0, by decide, by decide, by decide, by decide⟩
    let leap : Instant := ⟨63000000059, 1500000000, by decide, by decide, by decide, by decide⟩
    let soon : Instant := ⟨63000000060, 0, by decide, by decide, by decide, by decide⟩
    let alert (n : UInt32) : Alert := ⟨⟨"a"⟩, "Ann", { id := n, time := noon }⟩
    let late : Alert := ⟨⟨"b"⟩, "Bob", { id := 1, time := leap }⟩
    let steps : List AlertStep :=
      [4, 2, 1, 6, 3, 5].map (fun n => .offer (alert n) noon) ++ [.offer late soon, .sweep soon]
    (steps.map AlertStep.time ++ [soon]).Pairwise (· ≤ ·) ∧
      (∀ t ∈ steps.map AlertStep.time ++ [soon], t.isLeap = false) ∧
      (run {} steps).held.length = 7 ∧
      (run {} steps).shown soon = newest soon (taken {} steps) := by
  intro noon leap soon alert late steps
  have hmono : (steps.map AlertStep.time ++ [soon]).Pairwise (· ≤ ·) := by decide
  have hleap : ∀ t ∈ steps.map AlertStep.time ++ [soon], t.isLeap = false := by decide
  have hseven : (run {} steps).held.length = 7 := by decide
  have hclock : (run {} steps).held.Pairwise (fun x y =>
      x.collision.time.measuredFrom ≤ y.collision.time.measuredFrom) := by decide
  obtain ⟨-, -, hnewest, -⟩ := shown_run hmono hleap
  exact ⟨hmono, hleap, hseven, hnewest hclock⟩

/-- It is not true that the newest six are always shown. One collision happens at the end of the
leap second that ends a day, and six directly afterwards take its place. Ten seconds later those are
not fresh any more, but the first one is, and it stays hidden. -/
theorem newest_hidden_after_leap_second :
    ¬ ∀ (steps : List AlertStep) (now : Instant),
      (steps.map AlertStep.time ++ [now]).Pairwise (· ≤ ·) →
      (∀ t ∈ steps.map AlertStep.time ++ [now], t.isLeap = false) →
      (run {} steps).shown now = newest now (taken {} steps) ∧
        ((run {} steps).shown now).length ≤ mostShown := by
  intro h
  let leap : Instant := ⟨63618825599, 1900000000, by decide, by decide, by decide, by decide⟩
  let next : Instant := ⟨63618825600, 100000000, by decide, by decide, by decide, by decide⟩
  let soon : Instant := ⟨63618825601, 0, by decide, by decide, by decide, by decide⟩
  let now : Instant := ⟨63618825610, 500000000, by decide, by decide, by decide, by decide⟩
  let ann : Alert := ⟨⟨"a"⟩, "Ann", { id := 1, time := leap }⟩
  let bob (n : UInt32) : Alert := ⟨⟨"b"⟩, "Bob", { id := n, time := next }⟩
  let steps : List AlertStep :=
    .offer ann soon :: [1, 2, 3, 4, 5, 6].map (fun n => .offer (bob n) soon)
  have hshown := (h steps now (by decide) (by decide)).1
  have hnone : (run {} steps).shown now = [] := by decide
  have hfresh : (taken {} steps).filter (isFresh now) = [ann] := by decide
  rw [hnone, newest, hfresh, List.mergeSort_singleton] at hshown
  cases hshown

end Alerts

end Pitwall
