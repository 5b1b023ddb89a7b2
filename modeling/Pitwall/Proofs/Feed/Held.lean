import Pitwall.Feed.Alerts
import Pitwall.Proofs.Data.Lookup
import Pitwall.Proofs.Time.Elapsed

/-!
# Held alerts — what is kept of what is offered

Alerts are offered and swept in any order. An offer that is taken up puts one alert at its place in
the order of time (**`exists_entries_insert`**), a sweep takes a front part away, and hiding moves
nothing. So the alerts stay **`Sound`**: each stands under its own key, no collision is held twice,
and the collisions that count as announced are exactly those of the alerts that are held.
-/

namespace Pitwall

/-- What is done to alerts. -/
inductive AlertStep where
  /-- A collision is announced. -/
  | offer (alert : Alert) (now : Instant)
  /-- Old alerts are forgotten. -/
  | sweep (now : Instant)

/-- When it is done. -/
def AlertStep.time : AlertStep → Instant
  | .offer _ now => now
  | .sweep now => now

namespace Alerts

/-- What becomes of the alerts in a step, and the alert that is taken up, if any. -/
def step (a : Alerts) : AlertStep → Alerts × Option Alert
  | .offer alert now =>
    let (after, taken) := a.offer alert now
    (after, if taken then some alert else none)
  | .sweep now => ((a.sweep now).1, none)

/-- What becomes of the alerts in a run. -/
def run (a : Alerts) (steps : List AlertStep) : Alerts := steps.foldl (fun a s => (a.step s).1) a

/-- The alerts that are taken up in a run, in order. -/
def taken (a : Alerts) : List AlertStep → List Alert
  | [] => []
  | s :: steps => (a.step s).2.toList ++ (a.step s).1.taken steps

/-- The alerts that are held, in the order of time. -/
def held (a : Alerts) : List Alert := a.entries.entries.map (fun e => e.2.alert)

/-- An offer changes nothing, or its alert is taken up: it is new, and fresh enough to be shown. -/
theorem offer_cases (a : Alerts) (alert : Alert) (now : Instant) :
    a.offer alert now = (a, false) ∨
      (a.seen.contains alert.id = false ∧ age alert now < shownFor ∧
        a.offer alert now =
          ({ entries := hideExcess now (a.entries.insert alert.key ⟨alert, false⟩)
             seen := a.seen.insert alert.id () }, true)) := by
  rw [offer]
  split
  · exact Or.inl rfl
  · next hcond =>
    rw [Bool.or_eq_true, decide_eq_true_iff, not_or, Bool.not_eq_true, Int.not_le] at hcond
    exact Or.inr ⟨hcond.1, hcond.2, rfl⟩

/-- Hiding changes no alert. -/
theorem map_alert_hideFirst (now : Instant) (n : Nat) (es : List (AlertKey × AlertEntry)) :
    (hideFirst now n es).map (fun e => e.2.alert) = es.map (fun e => e.2.alert) := by
  induction es generalizing n with
  | nil => cases n <;> rfl
  | cons e es ih =>
      cases n with
      | zero => rfl
      | succ n =>
          rw [hideFirst]
          split <;> simp [ih]

/-- Alerts are kept in order. -/
structure Sound (a : Alerts) : Prop where
  /-- Every alert stands under its own key. -/
  keys : a.entries.keys = a.held.map Alert.key
  /-- No collision is held twice. -/
  ids : (a.held.map Alert.id).Nodup
  /-- Announced are the collisions that are held. -/
  seen : ∀ i, a.seen.contains i = true ↔ i ∈ a.held.map Alert.id

theorem sound_empty : ({} : Alerts).Sound where
  keys := rfl
  ids := List.nodup_nil
  seen := fun _ => iff_of_false Bool.false_ne_true List.not_mem_nil

theorem Sound.key_eq {a : Alerts} (h : a.Sound) {e : AlertKey × AlertEntry}
    (he : e ∈ a.entries.entries) : e.1 = e.2.alert.key := by
  have hkeys := h.keys
  rw [held, Table.keys, List.map_map, List.map_inj_left] at hkeys
  exact hkeys e he

/-- The alerts stand in the order of their keys. -/
theorem Sound.ascending {a : Alerts} (h : a.Sound) :
    a.held.Pairwise (fun x y => compare x.key y.key = .lt) := by
  have hkeys : (a.held.map Alert.key).Pairwise (fun k j => compare k j = .lt) := by
    rw [← h.keys]
    exact a.entries.ascending
  exact List.pairwise_map.1 hkeys

/-- The alerts stand in the order of their instants. -/
theorem Sound.times {a : Alerts} (h : a.Sound) :
    a.held.Pairwise (fun x y => x.collision.time ≤ y.collision.time) := by
  refine h.ascending.imp fun {x y} hxy => ?_
  show compare x.collision.time y.collision.time ≠ .gt
  rw [AlertKey.compare_def, Ordering.then_eq_lt] at hxy
  rcases hxy with hlt | ⟨heq, -⟩
  · exact fun hgt => nomatch hlt.symm.trans hgt
  · exact fun hgt => nomatch heq.symm.trans hgt

/-- The clock on which ages are measured goes on from one to the next, without collisions in leap
seconds. -/
theorem Sound.clock {a : Alerts} (h : a.Sound)
    (hplain : ∀ x ∈ a.held, x.collision.time.isLeap = false) :
    a.held.Pairwise (fun x y =>
      x.collision.time.measuredFrom ≤ y.collision.time.measuredFrom) :=
  h.times.imp_of_mem fun {x y} hx hy hxy =>
    Instant.measuredFrom_le_of_le (hplain x hx) (hplain y hy) hxy

/-- The key of an alert that has not been announced is new. -/
theorem Sound.key_notMem {a : Alerts} (h : a.Sound) {alert : Alert}
    (hnew : a.seen.contains alert.id = false) : alert.key ∉ a.entries.keys := by
  intro hmem
  rw [h.keys] at hmem
  obtain ⟨x, hx, hkey⟩ := List.mem_map.1 hmem
  have hid : x.id = alert.id := congrArg AlertKey.id hkey
  have hseen : a.seen.contains alert.id = true :=
    (h.seen _).2 (hid ▸ List.mem_map_of_mem hx)
  rw [hnew] at hseen
  cases hseen

/-- A new alert is put between two parts of the entries. -/
theorem Sound.exists_entries_insert {a : Alerts} (h : a.Sound) {alert : Alert}
    (hnew : a.seen.contains alert.id = false) :
    ∃ before after, a.entries.entries = before ++ after ∧
      (a.entries.insert alert.key ⟨alert, false⟩).entries =
        before ++ (alert.key, ⟨alert, false⟩) :: after :=
  Table.insertEntry_eq_append _ (h.key_notMem hnew)

/-- An offer that is taken up adds its alert to those that are held, and changes no other. -/
theorem Sound.held_offer {a : Alerts} (h : a.Sound) {alert : Alert} {now : Instant}
    (hnew : a.seen.contains alert.id = false)
    (htaken : (a.offer alert now).1.entries =
      hideExcess now (a.entries.insert alert.key ⟨alert, false⟩)) :
    (a.offer alert now).1.held.Perm (alert :: a.held) := by
  obtain ⟨before, after, hentries, hinsert⟩ := h.exists_entries_insert hnew
  rw [held, htaken, held, hentries]
  show ((hideFirst now _ (a.entries.insert _ _).entries).map _).Perm _
  rw [map_alert_hideFirst, hinsert]
  exact (List.perm_middle).map _

theorem Sound.offer {a : Alerts} (h : a.Sound) (alert : Alert) (now : Instant) :
    (a.offer alert now).1.Sound := by
  rcases a.offer_cases alert now with hsame | ⟨hnew, -, htaken⟩
  · rw [hsame]
    exact h
  · have hperm := (h.held_offer hnew (congrArg (fun p => p.1.entries) htaken)).map Alert.id
    refine ⟨?keys, ?ids, ?seen⟩
    case keys =>
      obtain ⟨before, after, hentries, hinsert⟩ := h.exists_entries_insert hnew
      have hkeys : ∀ e ∈ before ++ after, e.1 = e.2.alert.key := by
        intro e he
        exact h.key_eq (hentries ▸ he)
      rw [held, htaken]
      show (hideFirst now _ (a.entries.insert _ _).entries).map Prod.fst =
        ((hideFirst now _ (a.entries.insert _ _).entries).map _).map _
      rw [keys_hideFirst, map_alert_hideFirst, hinsert, List.map_map, List.map_append,
        List.map_append, List.map_cons, List.map_cons,
        List.map_congr_left fun e he => hkeys e (List.mem_append_left _ he),
        List.map_congr_left fun e he => hkeys e (List.mem_append_right _ he)]
      rfl
    case ids =>
      rw [hperm.nodup_iff, List.map_cons, List.nodup_cons, ← h.seen, hnew]
      exact ⟨Bool.false_ne_true, h.ids⟩
    case seen =>
      intro i
      rw [hperm.mem_iff, List.map_cons, List.mem_cons, ← h.seen, htaken]
      show (a.seen.insert alert.id ()).contains i = true ↔ _
      rw [Table.contains_eq_isSome, Table.contains_eq_isSome, Table.get?_insert]
      by_cases hi : alert.id = i
      · simp [hi]
      · simp [hi, Ne.symm hi]

/-- The entries that a sweep forgets are no longer announced; the others are as before. -/
theorem contains_foldl_erase (seen : Table AlertId Unit) (es : List (AlertKey × AlertEntry))
    (i : AlertId) :
    (es.foldl (fun seen e => seen.erase e.1.id) seen).contains i = true ↔
      seen.contains i = true ∧ i ∉ es.map (fun e => e.1.id) := by
  induction es generalizing seen with
  | nil => simp
  | cons e es ih =>
      rw [List.foldl_cons, ih, Table.contains_eq_isSome, Table.contains_eq_isSome,
        Table.get?_erase, List.map_cons, List.mem_cons]
      by_cases hi : i = e.1.id
      · simp [hi]
      · simp [hi]

/-- A sweep takes away the front that is over. -/
theorem held_eq_append_sweep (a : Alerts) (now : Instant) :
    a.held = (a.entries.entries.takeWhile (isOver now)).map (fun e => e.2.alert) ++
      (a.sweep now).1.held := by
  have hsweep : (a.sweep now).1.held =
      (a.entries.entries.dropWhile (isOver now)).map (fun e => e.2.alert) := map_alert_hideFirst ..
  rw [hsweep, ← List.map_append, List.takeWhile_append_dropWhile]
  rfl

theorem Sound.sweep {a : Alerts} (h : a.Sound) (now : Instant) : (a.sweep now).1.Sound := by
  have hheld := a.held_eq_append_sweep now
  have hids : (a.held.map Alert.id).Nodup := h.ids
  rw [hheld, List.map_append, List.nodup_append] at hids
  refine ⟨?keys, hids.2.1, ?seen⟩
  case keys =>
    show (hideFirst now _ (a.entries.entries.dropWhile _)).map Prod.fst =
      ((hideFirst now _ (a.entries.entries.dropWhile _)).map _).map _
    rw [keys_hideFirst, map_alert_hideFirst, List.map_map]
    exact List.map_congr_left fun e he => h.key_eq ((List.dropWhile_sublist _).subset he)
  case seen =>
    intro i
    have hended : (a.entries.entries.takeWhile (isOver now)).map (fun e => e.1.id) =
        ((a.entries.entries.takeWhile (isOver now)).map (fun e => e.2.alert)).map Alert.id := by
      rw [List.map_map]
      refine List.map_congr_left fun e he => ?_
      exact congrArg AlertKey.id (h.key_eq ((List.takeWhile_sublist _).subset he))
    show ((a.entries.entries.takeWhile (isOver now)).foldl _ a.seen).contains i = true ↔ _
    rw [contains_foldl_erase, h.seen, hended, hheld, List.map_append, List.mem_append]
    -- no collision is both forgotten and still held
    constructor
    · rintro ⟨hi, hnot⟩
      exact hi.resolve_left hnot
    · intro hi
      exact ⟨Or.inr hi, fun hi' => hids.2.2 _ hi' _ hi rfl⟩

theorem Sound.step {a : Alerts} (h : a.Sound) (s : AlertStep) : (a.step s).1.Sound := by
  cases s with
  | offer alert now => exact h.offer alert now
  | sweep now => exact h.sweep now

end Alerts

end Pitwall
