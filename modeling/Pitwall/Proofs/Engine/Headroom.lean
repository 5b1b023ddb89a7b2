import Mathlib.Algebra.Order.Ring.Nat
import Pitwall.Proofs.Engine.Counting
import Pitwall.Proofs.Engine.Steps

/-!
# Headroom — how far a run can count

Counts and times driven come from snapshots, which may say anything, and go on from there: an event
adds one lap or one collision to a record, and a lap adds its time. So the records of a board are
within what the snapshots of a run say and what its events add (**`Engine.within_run`**). As long as
that stays below the ends of the words, nothing overflows: **`Engine.overflows_iff`**. A snapshot
that says the highest time there is leaves no room for the next lap:
**`Engine.overflows_after_snapshot`**.
-/

namespace Pitwall

/-! ## Records within bounds -/

namespace LapSheet

/-- Laps and time driven of a sheet are bounded. -/
structure Within (s : LapSheet) (n : Nat) (t : Int) : Prop where
  laps : s.laps.toNat ≤ n
  time : s.totalTime.toInt ≤ t

end LapSheet

instance (s : LapSheet) (n : Nat) (t : Int) : Decidable (s.Within n t) :=
  decidable_of_iff (s.laps.toNat ≤ n ∧ s.totalTime.toInt ≤ t)
    ⟨fun ⟨hlaps, htime⟩ => ⟨hlaps, htime⟩, fun h => ⟨h.laps, h.time⟩⟩

namespace Driver

/-- What a record counts is bounded: the laps and the numbers of the collisions by one bound, the
time driven in any car by another. -/
structure Within (d : Driver) (n : Nat) (t : Int) : Prop where
  laps : d.totalLaps.toNat ≤ n
  collisions : ∀ c ∈ d.collisions, c.id.toNat ≤ n
  sheets : ∀ s ∈ d.sheets.values, s.Within n t

instance (d : Driver) (n : Nat) (t : Int) : Decidable (d.Within n t) :=
  decidable_of_iff (d.totalLaps.toNat ≤ n ∧ (∀ c ∈ d.collisions, c.id.toNat ≤ n) ∧
      ∀ s ∈ d.sheets.values, s.Within n t)
    ⟨fun ⟨hlaps, hcollisions, hsheets⟩ => ⟨hlaps, hcollisions, hsheets⟩,
      fun h => ⟨h.laps, h.collisions, h.sheets⟩⟩

variable {d : Driver} {n m : Nat} {t u : Int}

theorem Within.mono (h : d.Within n t) (hn : n ≤ m) (ht : t ≤ u) : d.Within m u where
  laps := Nat.le_trans h.laps hn
  collisions := fun c hc => Nat.le_trans (h.collisions c hc) hn
  sheets := fun s hs => ⟨Nat.le_trans (h.sheets s hs).laps hn, Int.le_trans (h.sheets s hs).time ht⟩

theorem anyCar_within : AnyCar (·.Within n t) := fun _ _ h => ⟨h.laps, h.collisions, h.sheets⟩

/-- An empty sheet has counted nothing. -/
theorem within_sheet_ofCar (car : CarInfo) (n : Nat) (ht : 0 ≤ t) :
    (LapSheet.ofCar car).Within n t :=
  ⟨Nat.zero_le n, ht⟩

theorem Within.insertSheet (h : d.Within n t) (model : String) {s : LapSheet} (hs : s.Within n t) :
    Within { d with sheets := d.sheets.insert model s } n t :=
  ⟨h.laps, h.collisions, Table.forall_values_insert h.sheets model hs⟩

/-- The active sheet is bounded, also where there is none yet. -/
theorem Within.sheet (h : d.Within n t) (ht : 0 ≤ t) : d.sheet.Within n t := by
  cases hs : d.sheet? with
  | none =>
      rw [Driver.sheet, hs]
      exact within_sheet_ofCar d.car n ht
  | some s =>
      rw [sheet_eq_of_sheet? hs]
      exact h.sheets s (Table.mem_values_iff.2 ⟨d.model, hs⟩)

theorem Within.addSheet (h : d.Within n t) (ht : 0 ≤ t) (car : CarInfo) :
    (d.addSheet car).Within n t := by
  rw [Driver.addSheet]
  split
  · exact h
  · exact h.insertSheet car.model (within_sheet_ofCar car n ht)

/-- A new record has counted nothing. -/
theorem within_ofCar (car : CarInfo) (now : Instant) (n : Nat) (ht : 0 ≤ t) :
    (ofCar car now).Within n t := by
  have hnone : Within { car, connectedAt := now, lastSeen := now } n t :=
    ⟨Nat.zero_le n, (fun _ hc => nomatch hc), (fun _ hs => nomatch hs)⟩
  exact hnone.insertSheet car.model (within_sheet_ofCar car n ht)

end Driver

/-! ## What an event adds -/

/-- How many laps or collisions an event may add to a record. -/
def Event.counts : Event → Nat
  | .lapCompleted _ => 1
  | .collision _ => 1
  | _ => 0

/-- How much time driven an event may add to a record, in nanoseconds. -/
def Event.nanos : Event → Nat
  | .lapCompleted l => l.millis.toNat * 1000000
  | _ => 0

/-- The counts of an event; other inputs have none. -/
def Input.counts : Input → Nat
  | .event ev _ => ev.counts
  | _ => 0

/-- The time of an event; other inputs have none. -/
def Input.nanos : Input → Nat
  | .event ev _ => ev.nanos
  | _ => 0

/-- What a snapshot that comes in says is bounded. -/
def Input.Within (n : Nat) (t : Int) : Input → Prop
  | .event (.snapshot s) _ => s.Lists (·.Within n t)
  | _ => True

namespace Driver

variable {d : Driver} {n : Nat} {t : Int}

/-- The next word is no more than the next count: it is less where the word goes round. -/
theorem toNat_succ_le (k : UInt32) : (k + 1).toNat ≤ k.toNat + 1 := by
  rw [UInt32.toNat_add]
  exact Nat.mod_le _ _

/-- The same for times. -/
theorem toInt_add_le (a : Int64) {b : Int64} (hb : 0 ≤ b.toInt) :
    (a + b).toInt ≤ a.toInt + b.toInt := by
  have hlow := a.le_toInt
  rw [Int64.toInt_add, Int.bmod_def]
  omega

/-- **A LAP ADDS ONE LAP AND ITS TIME**, at most. -/
theorem Within.completeLap (h : d.Within n t) (ht : 0 ≤ t) (l : LapReport) (now : Instant) :
    (d.completeLap l now).Within (n + 1) (t + l.millis.toNat * 1000000) := by
  have hold := h.mono (Nat.le_succ n) (show t ≤ t + l.millis.toNat * 1000000 by omega)
  have hsheet := h.sheet ht
  have hnanos : (nanosOfMillis l.millis).toInt = l.millis.toNat * 1000000 :=
    toInt_nanosOfMillis l.millis
  -- the record with the lap and the tyres, before the sheet is set
  have hlap : ∀ car, Within { d with totalLaps := d.totalLaps + 1, car } (n + 1)
      (t + l.millis.toNat * 1000000) := fun _ =>
    ⟨Nat.le_trans (toNat_succ_le _) (Nat.succ_le_succ h.laps), hold.collisions, hold.sheets⟩
  refine (hlap _).insertSheet _ ⟨?_, ?_⟩
  · show (d.sheet.completeLap _ _ _ _).laps.toNat ≤ n + 1
    rw [LapSheet.laps_completeLap]
    exact Nat.le_trans (toNat_succ_le _) (Nat.succ_le_succ hsheet.laps)
  · show (d.sheet.completeLap _ _ _ _).totalTime.toInt ≤ _
    rw [LapSheet.totalTime_completeLap]
    have hsum := toInt_add_le d.sheet.totalTime (b := nanosOfMillis l.millis) (by omega)
    have htime := hsheet.time
    omega

/-- The next number is at most one more than the greatest. -/
theorem Within.nextCollisionId (h : d.Within n t) : d.nextCollisionId.toNat ≤ n + 1 := by
  rw [Driver.nextCollisionId]
  cases hmax : (d.collisions.map Collision.id).max? with
  | none => exact Nat.zero_le _
  | some top =>
      obtain ⟨k, hk, rfl⟩ := List.mem_map.1 (List.max?_eq_some_iff.1 hmax).1
      exact Nat.le_trans (toNat_succ_le _) (Nat.succ_le_succ (h.collisions k hk))

/-- Of the old collisions some are kept. -/
theorem Within.collide (h : d.Within n t) {c : Collision} (hc : c.id.toNat ≤ n) :
    (d.collide c).Within n t where
  laps := h.laps
  collisions := by
    intro k hk
    rcases List.mem_append.1 (List.mem_of_mem_drop hk) with hold | hnew
    · exact h.collisions k hold
    · rw [List.mem_singleton.1 hnew]
      exact hc
  sheets := h.sheets

end Driver

namespace Board

variable {b c : Board} {n : Nat} {t : Int}

/-- What happens on the track adds no more than the event tells. -/
theorem within_recordAfter (b : Board) {d : Driver} (h : d.Within n t) (ht : 0 ≤ t) (now : Instant)
    (ev : Event) : (b.recordAfter now d ev).Within (n + ev.counts) (t + ev.nanos) := by
  have hnanos : t ≤ t + ev.nanos := by omega
  have hold : d.Within (n + ev.counts) (t + ev.nanos) := h.mono (Nat.le_add_right _ _) hnanos
  have hsheet := hold.sheet (Int.le_trans ht hnanos)
  cases ev with
  | clientLoaded car =>
      show (d.load now).Within _ _
      rw [Driver.load]
      split
      · exact hold
      · exact ⟨hold.laps, hold.collisions, hold.sheets⟩
  | carUpdate r =>
      have hset := hold.insertSheet d.model
        (s := { d.sheet with topSpeed := d.sheet.topSpeed.max r.speed }) ⟨hsheet.laps, hsheet.time⟩
      exact ⟨hset.laps, hset.collisions, hset.sheets⟩
  | collision r => exact hold.collide h.nextCollisionId
  | splitCompleted s => exact hold.insertSheet d.model ⟨hsheet.laps, hsheet.time⟩
  | tyresChanged car => exact ⟨hold.laps, hold.collisions, hold.sheets⟩
  | _ => exact hold

/-- **ONE STEP ADDS NO MORE THAN ITS INPUT TELLS.** -/
theorem Records.within_step (h : b.Records (·.Within n t)) (hn : UInt16.size ≤ n) (ht : 0 ≤ t)
    {i : Input} (hi : i.Within n t) (hstep : b.Step i c) :
    c.Records (·.Within (n + i.counts) (t + i.nanos)) := by
  have hnanos : t ≤ t + i.nanos := by omega
  have ht' : 0 ≤ t + i.nanos := Int.le_trans ht hnanos
  have hmono : ∀ d : Driver, d.Within n t → d.Within (n + i.counts) (t + i.nanos) := fun d hd =>
    hd.mono (Nat.le_add_right _ _) hnanos
  refine h.step ⟨Driver.anyCar_within, hmono, ?listed, ?fresh, ?joined, ?driven, ?lapped, ?raised⟩
    hstep
  case listed =>
    rintro s now rfl
    exact hi.imp hmono
  case fresh => exact fun car now => Driver.within_ofCar car now _ ht'
  case joined =>
    intro d car _ _ _ hd
    have hsheets := hd.addSheet ht' car
    exact ⟨hsheets.laps, hsheets.collisions, hsheets.sheets⟩
  case driven =>
    rintro ev now d rfl hd
    exact b.within_recordAfter hd ht now ev
  case lapped =>
    rintro l now d rfl hd
    exact hd.completeLap ht l now
  case raised =>
    intro d k hk hd
    have hless : k.toNat ≤ n := Nat.le_trans (Nat.le_of_lt hk) hn
    exact ⟨Nat.le_trans hless (Nat.le_add_right _ _), hd.collisions, hd.sheets⟩

end Board

/-! ## Runs -/

theorem Input.Within.mono {n m : Nat} {t u : Int} {i : Input} (h : i.Within n t) (hn : n ≤ m)
    (ht : t ≤ u) : i.Within m u := by
  cases i with
  | event ev now =>
      cases ev with
      | snapshot s => exact h.imp fun d hd => hd.mono hn ht
      | _ => trivial
  | tick t now => trivial
  | reset => trivial

namespace Engine

variable {n : Nat} {t : Int}

/-- **A RUN ADDS NO MORE THAN ITS INPUTS TELL.** -/
theorem within_run {e : Engine} (h : e.board.Records (·.Within n t)) (hn : UInt16.size ≤ n)
    (ht : 0 ≤ t) {inputs : List Input} (hall : ∀ i ∈ inputs, i.Within n t) :
    (e.run inputs).board.Records
      (·.Within (n + (inputs.map Input.counts).sum) (t + (inputs.map Input.nanos).sum)) := by
  -- the bounds go up with every input, so the rest of the run starts from higher ones
  induction inputs generalizing e n t with
  | nil =>
      show e.board.Records _
      simpa using h
  | cons i is ih =>
      have hnanos : t ≤ t + i.nanos := by omega
      have hstep := h.within_step hn ht (hall i List.mem_cons_self) (e.step_react i)
      have hrest := ih hstep (Nat.le_trans hn (Nat.le_add_right _ _)) (Int.le_trans ht hnanos)
        fun j hj => (hall j (List.mem_cons_of_mem i hj)).mono (Nat.le_add_right _ _) hnanos
      rw [run_cons, List.map_cons, List.map_cons, List.sum_cons, List.sum_cons, ← Nat.add_assoc,
        Int.natCast_add, ← Int.add_assoc]
      exact hrest

/-- A driver within bounds has room for what stays below the ends of the words. -/
theorem hasRoomToCount_of_within {b : Board} (h : b.Records (·.Within n t)) (ht : 0 ≤ t)
    {ev : Event} (hcounts : n + ev.counts < UInt32.size)
    (hnanos : t + ev.nanos ≤ Int64.maxValue.toInt) : b.HasRoomToCount ev := by
  cases ev with
  | lapCompleted l =>
      intro p hp
      have hd := h.connected p.1 p.2 (Board.atCar?_eq_some_iff.1 hp).2
      have hsheet := hd.sheet ht
      have hn : n + 1 < UInt32.size := hcounts
      have htime : t + l.millis.toNat * 1000000 ≤ Int64.maxValue.toInt := hnanos
      refine ⟨?_, ?_, ?_⟩
      · exact Nat.lt_of_le_of_lt (Nat.succ_le_succ hd.laps) hn
      · exact Nat.lt_of_le_of_lt (Nat.succ_le_succ hsheet.laps) hn
      · exact Int.le_trans (Int.add_le_add_right hsheet.time _) htime
  | collision c =>
      intro p hp k hk
      have hd := h.connected p.1 p.2 (Board.atCar?_eq_some_iff.1 hp).2
      exact Nat.lt_of_le_of_lt (Nat.succ_le_succ (hd.collisions k hk)) hcounts
  | _ => trivial

/-- **THERE IS NO OVERFLOW AS LONG AS THERE IS ROOM**: in every state that a run leads to, checked
arithmetic stops at an event exactly if unchecked arithmetic leaves other words than the numbers
that the event works out, and neither happens exactly if there is room for one more of what is
counted. The words of a lap stay on record, unless the leaderboard raises the laps of the driver.
There is room if what the snapshots of the run say, with what its events and this one add, stays
below the ends of the words. -/
theorem overflows_iff (inputs : List Input) (ev : Event) (now : Instant) :
    let e := initial.run inputs
    let all := inputs ++ [.event ev now]
    (e.overflows ev = true ↔ e.words now ev ≠ (e.figures ev).map Figure.value) ∧
    (∀ l g d, ev = .lapCompleted l → e.board.atCar? l.carId = some (g, d) →
      ∃ r laps, (e.apply ev now).1.board.connected.get? g = some r ∧
        e.words now ev =
          [r.sheet.lastLap.toInt, laps, r.sheet.laps.toNat, r.sheet.totalTime.toInt] ∧
        (laps = r.totalLaps.toNat ∨ r.totalLaps.toNat < UInt16.size)) ∧
    (e.overflows ev = false ↔ e.board.HasRoomToCount ev) ∧
    ∀ (n : Nat) (t : Int), UInt16.size ≤ n → 0 ≤ t → (∀ i ∈ inputs, i.Within n t) →
      n + (all.map Input.counts).sum < UInt32.size →
      t + (all.map Input.nanos).sum ≤ Int64.maxValue.toInt → e.overflows ev = false := by
  intro e all
  refine ⟨e.overflows_iff_words_ne now ev, ?_, e.overflows_eq_false_iff ev, ?_⟩
  · rintro l g d rfl hd
    exact exists_record_of_lap hd now
  · intro n t hn ht hall hcounts hnanos
    have hempty : initial.board.Records (·.Within n t) := .empty
    have hwithin := within_run hempty hn ht hall
    simp only [all, List.map_append, List.map_cons, List.map_nil, List.sum_append, List.sum_cons,
      List.sum_nil, Input.counts, Input.nanos] at hcounts hnanos
    exact (e.overflows_eq_false_iff ev).2
      (hasRoomToCount_of_within hwithin (by omega) (by omega) (by omega))

/-- A snapshot has a driver with seven laps, who completes another one: the laps are eight. -/
theorem overflows_iff_at_eighth_lap :
    let noon : Instant := ⟨63000000000, 0, by decide, by decide, by decide, by decide⟩
    let ann : CarInfo := { carId := 1, guid := ⟨"a"⟩, model := "m3" }
    let sheet : LapSheet := { laps := 7, totalTime := 560000000000 }
    let d : Driver :=
      { car := ann, totalLaps := 7, loadedAt := noon, sheets := Table.empty.insert "m3" sheet }
    let s : Snapshot :=
      { connected := some { drivers := ⟨[(⟨"a"⟩, d)], by decide⟩ }
        cars := ⟨[(1, ⟨"a"⟩)], by decide⟩ }
    let inputs : List Input := [.event (.snapshot s) noon]
    let lap : Event := .lapCompleted { carId := 1, millis := 80000 }
    let e := initial.run inputs
    (∀ i ∈ inputs, i.Within UInt16.size 560000000000) ∧ e.overflows lap = false ∧
      e.words noon lap = [80000000000, 8, 8, 640000000000] := by
  intro noon ann sheet d s inputs lap e
  have hwithin : ∀ i ∈ inputs, i.Within UInt16.size 560000000000 := by
    intro i hi
    obtain rfl := List.mem_singleton.1 hi
    show s.Lists _
    decide +kernel
  obtain ⟨-, -, -, hroom⟩ := overflows_iff inputs lap noon
  exact ⟨hwithin,
    hroom UInt16.size 560000000000 (Nat.le_refl _) (by decide) hwithin (by decide) (by decide),
    by decide +kernel⟩

/-- It is not true that nothing ever overflows: a snapshot says of a driver the highest time there
is, and the driver completes a lap. -/
theorem overflows_after_snapshot :
    ¬ ∀ (inputs : List Input) (ev : Event), (initial.run inputs).overflows ev = false := by
  intro h
  let noon : Instant := ⟨63000000000, 0, by decide, by decide, by decide, by decide⟩
  let ann : CarInfo := { carId := 1, guid := ⟨"a"⟩, model := "m3" }
  let sheet : LapSheet := { laps := 7, totalTime := Int64.maxValue }
  let d : Driver :=
    { car := ann, totalLaps := 7, loadedAt := noon, sheets := Table.empty.insert "m3" sheet }
  let s : Snapshot :=
    { connected := some { drivers := ⟨[(⟨"a"⟩, d)], by decide⟩ }
      cars := ⟨[(1, ⟨"a"⟩)], by decide⟩ }
  have hstop : (initial.run [.event (.snapshot s) noon]).overflows
      (.lapCompleted { carId := 1, millis := 80000 }) = true := by decide +kernel
  rw [h] at hstop
  cases hstop

end Engine

end Pitwall
