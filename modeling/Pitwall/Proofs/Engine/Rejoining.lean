import Pitwall.Proofs.Board.SameRecords
import Pitwall.Proofs.Engine.Connecting
import Pitwall.Proofs.Engine.Leaving

/-!
# Rejoining — who comes back and leaves before loading

A driver who comes back picks up a record and has to load again, so who leaves before that is purged
(**`Engine.board_rejoin`**). The files are then those of connecting, and a record for each car with
laps: **`Board.get?_files_rejoin`**. So every lap sheet of the record picked up that has laps is on
file afterwards. But the record itself is not if it knows no other car and has no laps in this one,
and it may show laps nevertheless, those of a leaderboard; nor are the files that it replaces, which
may show more of them. So the most laps that a file shows are not kept in every case, but exactly if
they stand in a record that survives: **`Engine.files_after_failed_rejoin`**.
-/

namespace Pitwall

namespace Board

variable {b : Board} {car : CarInfo} {r : Driver}

/-! ## The record picked up -/

theorem joining_of_history (hnone : b.connected.get? car.guid = none)
    (hr : b.history? car = some r) (now : Instant) : b.joining car now = resumed r car now := by
  rw [joining, hnone]
  show b.arriving car now = _
  rw [arriving_eq, hr]
  rfl

/-- The driver is connected with the record picked up. -/
theorem get?_connected_of_history (hnone : b.connected.get? car.guid = none)
    (hr : b.history? car = some r) (now : Instant) :
    (b.connect car now).connected.get? car.guid = some (resumed r car now) := by
  rw [get?_connected_connect, if_pos rfl, joining_of_history hnone hr]

theorem get?_sheets_resumed (r : Driver) (car : CarInfo) (now : Instant) (m : String) :
    (resumed r car now).sheets.get? m =
      if m = car.model then some ((r.sheets.get? m).getD (.ofCar car)) else r.sheets.get? m :=
  r.get?_addSheet car m

/-- Coming back adds no laps. -/
theorem mem_lappedModels_resumed {now : Instant} {m : String} :
    m ∈ (resumed r car now).lappedModels ↔ m ∈ r.lappedModels := by
  simp only [Driver.mem_lappedModels, get?_sheets_resumed]
  split
  · next hm =>
    cases r.sheets.get? m with
    | none =>
        have hempty : ¬ 0 < (LapSheet.ofCar car).laps := by
          show ¬ (0 : UInt32) < 0
          decide
        simp [hempty]
    | some s => rfl
  · rfl

/-! ## Coming back and leaving -/

/-- **THE FILES OF WHO CAME BACK AND WAS PURGED**: the record picked up for each of its cars, but for
the car driven only if there are laps in it, and what was on file of cars that the record does not
know. -/
theorem get?_files_rejoin (hnone : b.connected.get? car.guid = none)
    (hr : b.history? car = some r) (now : Instant) (m : String) :
    ((b.connect car now).purge car.guid).disconnected.get? ⟨car.guid, m⟩ =
      if m = car.model ∧ m ∉ r.lappedModels then none
      else ((resumed r car now).variant? m).or (b.disconnected.get? ⟨car.guid, m⟩) := by
  have hd := get?_connected_of_history hnone hr now
  have hg : (resumed r car now).guid = car.guid := rfl
  rw [get?_files_purge hd hg, get?_files_connect, joining_of_history hnone hr]
  by_cases hlaps : m ∈ r.lappedModels
  · obtain ⟨s, hs, -⟩ := Driver.mem_lappedModels.1 (mem_lappedModels_resumed.2 hlaps)
    obtain ⟨q, hq⟩ := Driver.exists_variant? hs
    rw [if_pos (mem_lappedModels_resumed.2 hlaps), if_neg (fun h => h.2 hlaps), hq,
      Option.some_or]
  · rw [if_neg (fun h => hlaps (mem_lappedModels_resumed.1 h))]
    by_cases hm : m = car.model
    · rw [if_pos hm, if_pos ⟨hm, hlaps⟩]
    · rw [if_neg hm, if_neg (fun h => hm h.1)]

/-! ## The most laps on file -/

/-- The most laps that a file of a driver shows. -/
def mostFiled? (b : Board) (g : Guid) : Option UInt32 :=
  ((b.filedRecords g (fun _ => true)).map Driver.totalLaps).max?

theorem mostFiled?_eq_some_iff {g : Guid} {n : UInt32} : b.mostFiled? g = some n ↔
    (∃ m q, b.disconnected.get? ⟨g, m⟩ = some q ∧ q.totalLaps = n) ∧
      ∀ m q, b.disconnected.get? ⟨g, m⟩ = some q → q.totalLaps ≤ n := by
  have hmem : ∀ k, k ∈ (b.filedRecords g (fun _ => true)).map Driver.totalLaps ↔
      ∃ m q, b.disconnected.get? ⟨g, m⟩ = some q ∧ q.totalLaps = k := by
    intro k
    simp only [List.mem_map, mem_filedRecords, true_and]
    constructor
    · rintro ⟨q, ⟨m, hq⟩, hk⟩
      exact ⟨m, q, hq, hk⟩
    · rintro ⟨m, q, hq, hk⟩
      exact ⟨q, ⟨m, hq⟩, hk⟩
  rw [mostFiled?, List.max?_eq_some_iff, hmem]
  refine and_congr_right fun _ => ?_
  constructor
  · intro h m q hq
    exact h _ ((hmem _).2 ⟨m, q, hq, rfl⟩)
  · intro h k hk
    obtain ⟨m, q, hq, rfl⟩ := (hmem k).1 hk
    exact h m q hq

/-- Some file shows the most laps. -/
theorem exists_mostFiled? {g : Guid} {m : String} {q : Driver}
    (hq : b.disconnected.get? ⟨g, m⟩ = some q) : ∃ n, b.mostFiled? g = some n := by
  refine Option.ne_none_iff_exists'.1 fun hnone => ?_
  have hempty : b.filedRecords g (fun _ => true) = [] :=
    List.map_eq_nil_iff.1 (List.max?_eq_none_iff.1 hnone)
  have hmem : q ∈ b.filedRecords g (fun _ => true) := mem_filedRecords.2 ⟨m, rfl, hq⟩
  rw [hempty] at hmem
  exact absurd hmem List.not_mem_nil

/-- So many laps are shown by a record that survives when the driver comes back with the record and
is purged: by that record, if it knows another car or has laps in this one, or by the file of a car
that it does not know. -/
def SurvivesRejoin (b : Board) (car : CarInfo) (r : Driver) (n : UInt32) : Prop :=
  (r.totalLaps = n ∧ ∃ m s, r.sheets.get? m = some s ∧ (m ≠ car.model ∨ 0 < s.laps)) ∨
    ∃ m q, m ∉ r.sheets.keys ∧ m ≠ car.model ∧ b.disconnected.get? ⟨car.guid, m⟩ = some q ∧
      q.totalLaps = n

/-- A file shows so many laps afterwards exactly if a record survives that does. -/
theorem exists_filed_rejoin_iff (hnone : b.connected.get? car.guid = none)
    (hr : b.history? car = some r) (now : Instant) (n : UInt32) :
    (∃ m q, ((b.connect car now).purge car.guid).disconnected.get? ⟨car.guid, m⟩ = some q ∧
      q.totalLaps = n) ↔ b.SurvivesRejoin car r n := by
  have hfiles := get?_files_rejoin hnone hr now
  -- a variant shows the laps of the record picked up
  have htotal : ∀ {m q}, (resumed r car now).variant? m = some q → q.totalLaps = r.totalLaps := by
    intro m q hq
    obtain ⟨s, -, rfl⟩ := Option.map_eq_some_iff.1 hq
    show (r.addSheet car).totalLaps = _
    rw [Driver.addSheet]
    split <;> rfl
  have hsheets := get?_sheets_resumed r car now
  constructor
  · rintro ⟨m, q, hq, rfl⟩
    rw [hfiles] at hq
    split at hq
    · cases hq
    · next hkept =>
      rcases Option.or_eq_some_iff.1 hq with hvariant | ⟨hno, hfile⟩
      · refine .inl ⟨(htotal hvariant).symm, ?_⟩
        by_cases hm : m = car.model
        · -- kept for its laps
          have hlaps : m ∈ r.lappedModels := Classical.not_not.1 fun h => hkept ⟨hm, h⟩
          obtain ⟨s, hs, hpos⟩ := Driver.mem_lappedModels.1 hlaps
          exact ⟨m, s, hs, .inr hpos⟩
        · obtain ⟨s, hs, -⟩ := Option.map_eq_some_iff.1 hvariant
          rw [hsheets, if_neg hm] at hs
          exact ⟨m, s, hs, .inl hm⟩
      · have hnew : (resumed r car now).sheets.get? m = none := Option.map_eq_none_iff.1 hno
        rw [hsheets] at hnew
        split at hnew
        · cases hnew
        · next hm => exact .inr ⟨m, q, Table.get?_eq_none_iff.1 hnew, hm, hfile, rfl⟩
  · rintro (⟨rfl, m, s, hs, hkeep⟩ | ⟨m, q, hnew, hm, hfile, rfl⟩)
    · obtain ⟨q, hq⟩ : ∃ q, (resumed r car now).variant? m = some q := by
        refine Driver.exists_variant? (s := s) ?_
        rw [hsheets, hs, Option.getD_some, ite_self]
      refine ⟨m, q, ?_, htotal hq⟩
      rw [hfiles, if_neg ?_, hq, Option.some_or]
      rintro ⟨hm, hno⟩
      rcases hkeep with hother | hpos
      · exact hother hm
      · exact hno (Driver.mem_lappedModels.2 ⟨s, hs, hpos⟩)
    · refine ⟨m, q, ?_, rfl⟩
      have hno : (resumed r car now).variant? m = none := by
        rw [Driver.variant?, hsheets, if_neg hm, Table.get?_eq_none_iff.2 hnew, Option.map_none]
      rw [hfiles, if_neg (fun h => hm h.1), hno, Option.none_or]
      exact hfile

/-- What survives has been on file before. -/
theorem SurvivesRejoin.exists_filed {n : UInt32} (h : b.SurvivesRejoin car r n)
    (hr : b.history? car = some r) :
    ∃ m q, b.disconnected.get? ⟨car.guid, m⟩ = some q ∧ q.totalLaps = n := by
  rcases h with ⟨hn, -⟩ | ⟨m, q, -, -, hfile, hn⟩
  · obtain ⟨m, hm⟩ := exists_filed_of_history? hr
    exact ⟨m, r, hm, hn⟩
  · exact ⟨m, q, hfile, hn⟩

/-- **THE MOST LAPS ON FILE ARE KEPT** exactly if a record survives that shows them. -/
theorem mostFiled?_rejoin_iff (hnone : b.connected.get? car.guid = none)
    (hr : b.history? car = some r) (now : Instant) :
    ((b.connect car now).purge car.guid).mostFiled? car.guid = b.mostFiled? car.guid ↔
      ∃ n, b.mostFiled? car.guid = some n ∧ b.SurvivesRejoin car r n := by
  have hafter := exists_filed_rejoin_iff hnone hr now
  constructor
  · intro hsame
    obtain ⟨m, hm⟩ := exists_filed_of_history? hr
    obtain ⟨n, hn⟩ := exists_mostFiled? hm
    rw [hn] at hsame
    exact ⟨n, hn, (hafter n).1 (mostFiled?_eq_some_iff.1 hsame).1⟩
  · rintro ⟨n, hn, hsurvives⟩
    rw [hn]
    refine mostFiled?_eq_some_iff.2 ⟨(hafter n).2 hsurvives, ?_⟩
    intro m q hq
    -- a file that is there afterwards shows no more than one that was there before
    obtain ⟨m', q', hq', hsame⟩ := ((hafter q.totalLaps).1 ⟨m, q, hq, rfl⟩).exists_filed hr
    rw [← hsame]
    exact (mostFiled?_eq_some_iff.1 hn).2 m' q' hq'

end Board

namespace Engine

/-- Who leaves before loading is purged. -/
theorem board_disconnect_of_unloaded {e : Engine} {g : Guid} {d : Driver}
    (hd : e.board.connected.get? g = some d) (hload : d.isLoaded = false) :
    (e.disconnect g).1.board = e.board.purge g := by
  rw [disconnect_eq hd, Board.purge_of_some hd]
  show (e.board.remove g).fileAll d.leftBehind = _
  rw [Driver.leftBehind, Driver.hasStint_eq_false_iff.2 (.inl hload)]
  rfl

/-- Who comes back and leaves at once has been connected and purged. -/
theorem board_rejoin {e : Engine} {car left : CarInfo} {r : Driver}
    (hnone : e.board.connected.get? car.guid = none) (hr : e.board.history? car = some r)
    (hleft : left.guid = car.guid) (t now : Instant) :
    ((e.apply (.newConnection car) t).1.apply (.connectionClosed left) now).1.board =
      (e.board.connect car t).purge car.guid := by
  have hd := Board.get?_connected_of_history hnone hr t
  show (disconnect { (e.apply (.newConnection car) t).1 with lastAppliedAt := some now }
    left.guid).1.board = _
  rw [hleft]
  exact board_disconnect_of_unloaded
    (e := { (e.apply (.newConnection car) t).1 with lastAppliedAt := some now }) hd rfl

/-- **A FAILED REJOIN**: a driver who is not connected but on file connects and leaves directly
afterwards. Then the driver is not connected and has neither a place nor a marker, and every lap
sheet with laps in the record picked up is on file for its car. The most laps that a file shows are
what they were exactly if they stood in a record that survives. -/
theorem files_after_failed_rejoin {e : Engine} {car left : CarInfo} {m : String} {q : Driver}
    (hnone : e.board.connected.get? car.guid = none)
    (hfile : e.board.disconnected.get? ⟨car.guid, m⟩ = some q) (hleft : left.guid = car.guid)
    (t now : Instant) :
    let b := e.board
    let c := ((e.apply (.newConnection car) t).1.apply (.connectionClosed left) now).1.board
    ∃ r, b.history? car = some r ∧
      c.connected.get? car.guid = none ∧ (∀ a, c.cars.guid? a ≠ some car.guid) ∧
      c.markers.get? car.guid = none ∧
      (∀ n s, r.sheets.get? n = some s → 0 < s.laps →
        ∃ p, c.disconnected.get? ⟨car.guid, n⟩ = some p ∧ p.sheets.get? n = some s) ∧
      (c.mostFiled? car.guid = b.mostFiled? car.guid ↔
        ∃ n, b.mostFiled? car.guid = some n ∧ b.SurvivesRejoin car r n) := by
  intro b c
  obtain ⟨r, hr⟩ := Board.history?_isSome hfile
  have hc : c = (b.connect car t).purge car.guid := board_rejoin hnone hr hleft t now
  have hd := Board.get?_connected_of_history hnone hr t
  refine ⟨r, hr, ?_, ?_, ?_, ?_, ?_⟩
  · rw [hc, Board.purge_of_some hd]
    show ((b.connect car t).connected.erase car.guid).get? car.guid = none
    rw [Keyed.get?_erase, if_pos rfl]
  · intro a ha
    rw [hc, Board.purge_of_some hd] at ha
    exact ((Occupancy.guid?_remove_iff _ _ _ _).1 ha).1 rfl
  · rw [hc, Board.purge_of_some hd]
    show ((b.connect car t).remove car.guid).markers.get? car.guid = none
    rw [Board.get?_markers_remove, if_pos rfl]
  · intro n s hs hpos
    have hlaps : n ∈ r.lappedModels := Driver.mem_lappedModels.2 ⟨s, hs, hpos⟩
    have hsheet : (Board.resumed r car t).sheets.get? n = some s := by
      rw [Board.get?_sheets_resumed, hs, Option.getD_some, ite_self]
    obtain ⟨p, hp⟩ := Driver.exists_variant? hsheet
    refine ⟨p, ?_, ?_⟩
    · rw [hc, Board.get?_files_rejoin hnone hr, if_neg (fun h => h.2 hlaps), hp, Option.some_or]
    · rw [(Driver.of_variant? hp).2]
      exact hsheet
  · rw [hc]
    exact Board.mostFiled?_rejoin_iff hnone hr t

/-- A driver with a lap in one car comes back in another one and leaves before loading: the lap is
still on file. -/
theorem files_after_failed_rejoin_in_other_car :
    let noon : Instant := ⟨63000000000, 0, by decide, by decide, by decide, by decide⟩
    let ann : CarInfo := { carId := 1, guid := ⟨"a"⟩, model := "m3" }
    let e := initial.run
      [.event (.newConnection ann) noon, .event (.clientLoaded 1) noon,
       .event (.lapCompleted { carId := 1, millis := 80000 }) noon,
       .event (.connectionClosed ann) noon]
    let back : CarInfo := { ann with model := "z4" }
    let c := ((e.apply (.newConnection back) noon).1.apply (.connectionClosed back) noon).1.board
    e.board.connected.get? ⟨"a"⟩ = none ∧ (∃ q, e.board.disconnected.get? ⟨⟨"a"⟩, "m3"⟩ = some q) ∧
      c.connected.get? ⟨"a"⟩ = none ∧ c.mostFiled? ⟨"a"⟩ = some 1 ∧
      ∃ p s, c.disconnected.get? ⟨⟨"a"⟩, "m3"⟩ = some p ∧ p.sheets.get? "m3" = some s ∧ s.laps = 1 := by
  intro noon ann e back c
  have hnone : e.board.connected.get? back.guid = none := by decide +kernel
  have hmost : e.board.mostFiled? ⟨"a"⟩ = some 1 := by decide +kernel
  obtain ⟨q, hfile⟩ : ∃ q, e.board.disconnected.get? ⟨back.guid, "m3"⟩ = some q :=
    Option.isSome_iff_exists.1 (by decide +kernel)
  have hleft : back.guid = back.guid := rfl
  obtain ⟨r, hr, hgone, -, -, hkept, hiff⟩ :=
    files_after_failed_rejoin hnone hfile hleft noon noon
  obtain ⟨r', hr', htotal, s, hs, hlap⟩ : ∃ r ∈ e.board.history? back, r.totalLaps = 1 ∧
      ∃ s ∈ r.sheets.get? "m3", s.laps = 1 := by decide +kernel
  obtain rfl : r' = r := Option.some.inj (hr'.symm.trans hr)
  have hpos : 0 < s.laps := by
    rw [hlap]
    decide
  obtain ⟨p, hp, hsheet⟩ := hkept "m3" s hs hpos
  refine ⟨hnone, ⟨q, hfile⟩, hgone, ?_, p, s, hp, hsheet, hlap⟩
  exact (hiff.2 ⟨1, hmost, .inl ⟨htotal, "m3", s, hs, .inr hpos⟩⟩).trans hmost

/-- It is not true that the most laps on file are always kept. A driver has no lap in a car, but five
of them on a leaderboard, and leaves. The record that stays on file shows five laps; when the driver
comes back in the car and leaves before loading, no record is left. -/
theorem laps_lost_by_failed_rejoin :
    ¬ ∀ (e : Engine) (car left : CarInfo) (t now : Instant), e.Reachable →
      e.board.connected.get? car.guid = none →
      (∃ m q, e.board.disconnected.get? ⟨car.guid, m⟩ = some q) → left.guid = car.guid →
      ((e.apply (.newConnection car) t).1.apply (.connectionClosed left) now).1.board.mostFiled?
        car.guid = e.board.mostFiled? car.guid := by
  intro h
  let noon : Instant := ⟨63000000000, 0, by decide, by decide, by decide, by decide⟩
  let ann : CarInfo := { carId := 1, guid := ⟨"a"⟩, model := "m3" }
  let e := initial.run
    [.event (.newConnection ann) noon, .event (.newConnection { carId := 2, guid := ⟨"b"⟩ }) noon,
     .event (.clientLoaded 1) noon,
     .event (.lapCompleted { carId := 2, leaderboard := [{ carId := 1, laps := 5 }] }) noon,
     .event (.connectionClosed ann) noon]
  have hmost : e.board.mostFiled? ⟨"a"⟩ = some 5 := by decide +kernel
  have hfile : ∃ q, e.board.disconnected.get? ⟨⟨"a"⟩, "m3"⟩ = some q :=
    Option.isSome_iff_exists.1 (by decide +kernel)
  have hlost : ((e.apply (.newConnection ann) noon).1.apply (.connectionClosed ann)
      noon).1.board.mostFiled? ⟨"a"⟩ = none := by decide +kernel
  have hkept := h e ann ann noon noon ⟨_, rfl⟩ (by decide +kernel) ⟨"m3", hfile⟩ rfl
  exact nomatch hlost.symm.trans (hkept.trans hmost)

end Engine

end Pitwall
