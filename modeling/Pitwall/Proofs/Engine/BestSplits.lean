import Pitwall.Proofs.Engine.Splits

/-!
# Best splits — where the splits of a best lap come from

A best lap keeps the splits that were gathered while it was under way. A driver who connects brings
the splits that the record was left with, and these count as splits of the lap under way until they
are received again. **`LapUnderWay`** tells the ones from the others along a run
(**`Engine.Follows.run`**). The splits of a best lap are the latest received since the driver
connected or completed the last lap, and the ones brought where there are none:
**`Engine.bestSplits_of_run`**. So they are those of the lap exactly if all that was brought has
been received again, which need not be so: **`Engine.bestSplits_of_abandoned_lap`**.
-/

namespace Pitwall

/-- The splits of the lap that a driver is driving in a car. -/
structure LapUnderWay where
  /-- The splits that stood on the record when the driver connected. -/
  brought : Table UInt8 Split := .empty
  /-- The splits received since then, in order. -/
  received : List Split := []

namespace LapUnderWay

/-- The latest split received under a number. -/
def latest? (u : LapUnderWay) (index : UInt8) : Option Split :=
  (u.received.filter (fun p => p.index = index)).getLast?

/-- The split that counts: the latest received, or the one brought. -/
def split? (u : LapUnderWay) (index : UInt8) : Option Split :=
  (u.latest? index).or (u.brought.get? index)

/-- The lap with a split received, if there is one. -/
def receive (u : LapUnderWay) (p : Option Split) : LapUnderWay :=
  { u with received := u.received ++ p.toList }

theorem receive_none (u : LapUnderWay) : u.receive none = u := by
  rw [receive, Option.toList_none, List.append_nil]

theorem split?_receive (u : LapUnderWay) (p : Split) (index : UInt8) :
    (u.receive (some p)).split? index = if p.index = index then some p else u.split? index := by
  rw [split?, latest?, receive, Option.toList_some, List.filter_append, List.filter_cons]
  split
  · next h =>
    have h := of_decide_eq_true h
    rw [if_pos h, List.filter_nil, List.getLast?_concat]
    rfl
  · next h =>
    have h : ¬ p.index = index := fun heq => h (decide_eq_true heq)
    rw [if_neg h, List.filter_nil, List.append_nil]
    rfl

/-- The splits are those received exactly if all that were brought have been received again. -/
theorem split?_eq_latest?_iff (u : LapUnderWay) :
    (∀ index, u.split? index = u.latest? index) ↔
      ∀ index ∈ u.brought.keys, (u.latest? index).isSome = true := by
  refine forall_congr' fun index => ?_
  rw [split?, Table.mem_keys_iff]
  cases u.latest? index with
  | none =>
      cases u.brought.get? index with
      | none => simp
      | some p => simp
  | some p => simp

end LapUnderWay

namespace Engine

/-- The lap under way of a driver in a car after one more input. It starts when the driver connects,
with what stands on the record, and after a lap in the car. -/
def followLap (e : Engine) (g : Guid) (m : String) (u : LapUnderWay) (i : Input) : LapUnderWay :=
  if i.connects g then
    { brought := ((e.react i).1.board.connected.get? g).elim .empty (·.splitsIn m) }
  else if e.board.completesLap g m i then {}
  else u.receive (e.board.splitOf? g m i)

/-- The lap under way after a run. -/
def lapUnderWay (e : Engine) (g : Guid) (m : String) (u : LapUnderWay) : List Input → LapUnderWay
  | [] => u
  | i :: inputs => (e.react i).1.lapUnderWay g m (e.followLap g m u i) inputs

/-- The splits that count for the lap under way stand on the record of the driver. -/
def Follows (e : Engine) (g : Guid) (m : String) (u : LapUnderWay) : Prop :=
  ∀ d, e.board.connected.get? g = some d → ∀ index, (d.splitsIn m).get? index = u.split? index

variable {e : Engine} {g : Guid} {m : String} {i : Input} {u : LapUnderWay}

/-- **ONE INPUT IS FOLLOWED.** -/
theorem Follows.react (h : e.Follows g m u) (hi : i.isSnapshot = false) :
    (e.react i).1.Follows g m (e.followLap g m u i) := by
  intro r hr index
  rw [followLap]
  by_cases hg : i.connects g = true
  · rw [if_pos hg, hr]
    rfl
  · obtain ⟨d, hd, hsplits⟩ := splitsIn_react (m := m) hi (Bool.eq_false_iff.2 hg) hr
    rw [if_neg hg, hsplits, Board.splitsIn_recordWith hd]
    split
    · exact Table.get?_empty _
    · cases hp : e.board.splitOf? g m i with
      | none =>
          rw [LapUnderWay.receive_none]
          exact h d hd index
      | some p =>
          show ((d.splitsIn m).insert p.index p).get? index = _
          rw [Table.get?_insert, LapUnderWay.split?_receive, h d hd index]

/-- **A RUN IS FOLLOWED.** -/
theorem Follows.run (h : e.Follows g m u) {inputs : List Input}
    (hall : ∀ i ∈ inputs, i.isSnapshot = false) :
    (e.run inputs).Follows g m (e.lapUnderWay g m u inputs) := by
  induction inputs generalizing e u with
  | nil => exact h
  | cons i inputs ih =>
      rw [run_cons, lapUnderWay]
      exact ih (h.react (hall i List.mem_cons_self)) fun j hj => hall j (List.mem_cons_of_mem i hj)

/-- **THE SPLITS OF A BEST LAP**, in a run without snapshots: they are the latest that the driver
has received in the car since connecting and since the last lap in it, and the ones brought where
there are none. So they are those received since then exactly if all that were brought have been
received again. All of them have been received in the run, by the driver and in the car. -/
theorem bestSplits_of_run {inputs : List Input} (hall : ∀ i ∈ inputs, i.isSnapshot = false)
    {l : LapReport} {g : Guid} {d : Driver}
    (hat : (initial.run inputs).board.atCar? l.carId = some (g, d))
    (hbest : d.sheet.improvedBy (Driver.nanosOfMillis l.millis) l.cuts = true) (now : Instant) :
    let u := initial.lapUnderWay g d.model {} inputs
    ∃ r s, ((initial.run inputs).apply (.lapCompleted l) now).1.board.connected.get? g = some r ∧
      r.sheets.get? d.model = some s ∧ s.bestLap = Driver.nanosOfMillis l.millis ∧
      (∀ index, s.bestSplits.get? index = u.split? index) ∧
      ((∀ index, s.bestSplits.get? index = u.latest? index) ↔
        ∀ index ∈ u.brought.keys, (u.latest? index).isSome = true) ∧
      ∀ index p, s.bestSplits.get? index = some p →
        p.index = index ∧ p ∈ initial.gather (fun b => b.splitOf? g d.model) inputs := by
  intro u
  have hd : (initial.run inputs).board.connected.get? g = some d :=
    (Board.atCar?_eq_some_iff.1 hat).2
  have hnobody : initial.Follows g d.model {} := fun r hr => nomatch hr
  have hcount : ∀ index, (d.splitsIn d.model).get? index = u.split? index :=
    hnobody.run hall d hd
  have hempty : initial.board.SplitsFrom g d.model [] := fun r hr => nomatch hr
  have hfrom := splitsFrom_run hempty Board.filed_empty hall d (Board.mem_records.2 (.inl hd))
  obtain ⟨n, hr, -⟩ := exists_record_react (i := .event (.lapCompleted l) now) hd rfl
  have hset : (initial.run inputs).board.recordWith g d (.event (.lapCompleted l) now) =
      d.completeLap l now :=
    if_pos (Board.occupant?_eq_some_iff.2 ⟨d, hat⟩)
  rw [hset] at hr
  obtain ⟨hlap, hsplits⟩ := d.sheet.best_completeLap (Driver.nanosOfMillis l.millis) l.cuts
    (if l.tyres.isEmpty then d.car.tyres else l.tyres) now
  rw [if_pos hbest] at hlap hsplits
  rw [d.currentSplits_sheet] at hsplits
  refine ⟨_, _, hr, ?_, hlap, ?_, ?_, ?_⟩
  · show (d.sheets.insert d.model _).get? d.model = _
    rw [Table.get?_insert, if_pos rfl]
    rfl
  · intro index
    rw [hsplits, hcount]
  · rw [hsplits, ← u.split?_eq_latest?_iff]
    exact forall_congr' fun index => by rw [hcount]
  · intro index p hp
    rw [hsplits] at hp
    exact hfrom index p hp

/-- A driver leaves in the middle of a lap, after a split, and drives the next lap after coming
back: the split is received again. -/
theorem bestSplits_after_return :
    let ann : CarInfo := { carId := 1, guid := ⟨"a"⟩, model := "m3" }
    let lap : LapReport := { carId := 1, millis := 80000 }
    let inputs : List Input :=
      [.event (.newConnection ann) .zero,
       .event (.lapCompleted { carId := 1, millis := 95000 }) .zero,
       .event (.splitCompleted { carId := 1, index := 0, millis := 31000 }) .zero,
       .event (.connectionClosed ann) .zero,
       .event (.newConnection ann) .zero,
       .event (.splitCompleted { carId := 1, index := 0, millis := 30000 }) .zero,
       .event (.splitCompleted { carId := 1, index := 1, millis := 29000 }) .zero]
    let u := initial.lapUnderWay ⟨"a"⟩ "m3" {} inputs
    (∀ i ∈ inputs, i.isSnapshot = false) ∧ u.brought.keys = [0] ∧
      u.received.map Split.time = [30000000000, 29000000000] ∧
      ∃ d, (initial.run inputs).board.atCar? lap.carId = some (⟨"a"⟩, d) ∧ d.model = "m3" ∧
        d.sheet.improvedBy (Driver.nanosOfMillis lap.millis) lap.cuts = true ∧
        ∃ r s, ((initial.run inputs).apply (.lapCompleted lap) .zero).1.board.connected.get? ⟨"a"⟩ =
            some r ∧
          r.sheets.get? "m3" = some s ∧ s.bestLap = 80000000000 ∧
          ∀ index, s.bestSplits.get? index = u.latest? index := by
  intro ann lap inputs u
  have hall : ∀ i ∈ inputs, i.isSnapshot = false := by decide
  have hbrought : u.brought.keys = [0] := by decide +kernel
  have hreceived : u.received.map Split.time = [30000000000, 29000000000] := by decide +kernel
  have hagain : ∀ index ∈ u.brought.keys, (u.latest? index).isSome = true := by decide +kernel
  have htime : Driver.nanosOfMillis lap.millis = 80000000000 := by decide +kernel
  obtain ⟨⟨g, d⟩, hat, hg, hm, hbest⟩ : ∃ p ∈ (initial.run inputs).board.atCar? lap.carId,
      p.1 = ⟨"a"⟩ ∧ p.2.model = "m3" ∧
      p.2.sheet.improvedBy (Driver.nanosOfMillis lap.millis) lap.cuts = true := by decide +kernel
  subst hg
  obtain ⟨r, s, hr, hs, hlap, -, hiff, -⟩ := bestSplits_of_run hall (l := lap) hat hbest .zero
  rw [hm] at hs hiff
  exact ⟨hall, hbrought, hreceived, d, hat, hm, hbest, r, s, hr, hs, hlap.trans htime,
    hiff.2 hagain⟩

/-- It is not true that the splits of a best lap are those of the lap: a driver leaves in the middle
of a lap, after a split, and comes back. The split of the abandoned lap stays on record, and it is
kept with the next lap, in which none was received. -/
theorem bestSplits_of_abandoned_lap :
    ¬ ∀ (inputs : List Input) (l : LapReport) (g : Guid) (d : Driver) (now : Instant),
      (∀ i ∈ inputs, i.isSnapshot = false) →
      (initial.run inputs).board.atCar? l.carId = some (g, d) →
      d.sheet.improvedBy (Driver.nanosOfMillis l.millis) l.cuts = true →
      ∀ r s, ((initial.run inputs).apply (.lapCompleted l) now).1.board.connected.get? g = some r →
        r.sheets.get? d.model = some s →
        ∀ index, s.bestSplits.get? index =
          (initial.lapUnderWay g d.model {} inputs).latest? index := by
  intro h
  let noon : Instant := ⟨63000000000, 0, by decide, by decide, by decide, by decide⟩
  let ann : CarInfo := { carId := 1, guid := ⟨"a"⟩, model := "m3" }
  let lap : LapReport := { carId := 1, millis := 80000 }
  let inputs : List Input :=
    [.event (.newConnection ann) noon, .event (.clientLoaded 1) noon,
     .event (.lapCompleted { carId := 1, millis := 95000 }) noon,
     .event (.splitCompleted { carId := 1, index := 0, millis := 30000 }) noon,
     .event (.connectionClosed ann) noon, .event (.newConnection ann) noon,
     .event (.clientLoaded 1) noon]
  have hall : ∀ i ∈ inputs, i.isSnapshot = false := by decide
  obtain ⟨⟨g, d⟩, hat, hg, hm, hbest⟩ : ∃ p ∈ (initial.run inputs).board.atCar? lap.carId,
      p.1 = ⟨"a"⟩ ∧ p.2.model = "m3" ∧
      p.2.sheet.improvedBy (Driver.nanosOfMillis lap.millis) lap.cuts = true := by decide +kernel
  subst hg
  obtain ⟨r, hr, s, hs, hkept⟩ :
      ∃ r ∈ ((initial.run inputs).apply (.lapCompleted lap) noon).1.board.connected.get? ⟨"a"⟩,
        ∃ s ∈ r.sheets.get? "m3", (s.bestSplits.get? 0).isSome = true := by decide +kernel
  have hnone : (initial.lapUnderWay ⟨"a"⟩ "m3" {} inputs).latest? 0 = none := by decide +kernel
  rw [← hm] at hs hnone
  have hsame := h inputs lap ⟨"a"⟩ d noon hall hat hbest r s hr hs 0
  rw [hsame, hnone] at hkept
  cases hkept

end Engine
end Pitwall
