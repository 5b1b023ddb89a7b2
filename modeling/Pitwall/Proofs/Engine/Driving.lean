import Pitwall.Engine.Apply
import Pitwall.Proofs.Data.Lookup

/-!
# Driving — what events on the track may do to records

Apart from snapshots and drivers who come and go, an event changes connected records only, and
of a record only little: the driver and the car stay, the lap sheets of other cars stay, and the
active sheet stays or gets on by a lap (**`Driver.Continues`**). **`Board.Driven`** says so of a
whole board, and **`Engine.driven_merge`** proves it of every such event.
-/

namespace Pitwall

/-- The greater of two counts bounds both and is one of them. -/
instance lawfulOrderMaxUInt32 : Std.LawfulOrderMax UInt32 where
  max_le_iff a b c := by
    show (if a ≤ b then b else a) ≤ c ↔ _
    split
    · next h => exact ⟨fun hb => ⟨UInt32.le_trans h hb, hb⟩, fun hab => hab.2⟩
    · next h =>
      have hba : b ≤ a := UInt32.le_of_lt (UInt32.not_le.1 h)
      exact ⟨fun ha => ⟨ha, UInt32.le_trans hba ha⟩, fun hab => hab.1⟩
  max_eq_or a b := by
    show (if a ≤ b then b else a) = a ∨ (if a ≤ b then b else a) = b
    split
    · exact Or.inr rfl
    · exact Or.inl rfl

namespace LapSheet

/-- The sheet stays as far as laps and best lap go, or gets on by a lap where one is driven. -/
structure Continues (s t : LapSheet) (lap : Prop) : Prop where
  /-- The laps stay, or there is one more. -/
  laps : t.laps = s.laps ∨ (lap ∧ t.laps = s.laps + 1)
  /-- The best lap stays, or a better one takes its place. -/
  best : t.bestLap = s.bestLap ∨ (t.hasValidLap ∧ (s.hasValidLap → t.bestLap < s.bestLap))

theorem Continues.refl (s : LapSheet) (lap : Prop) : s.Continues s lap :=
  ⟨Or.inl rfl, Or.inl rfl⟩

/-- A completed lap counts, and it is the best lap if it is better than the one before. -/
theorem continues_completeLap (s : LapSheet) (time : Int64) (cuts : UInt8) (tyres : String)
    (now : Instant) {lap : Prop} (hlap : lap) :
    s.Continues (s.completeLap time cuts tyres now) lap := by
  rw [completeLap]
  dsimp only
  split
  · next himp =>
    refine ⟨Or.inr ⟨hlap, rfl⟩, Or.inr ⟨?_, ?_⟩⟩
    · simp only [improvedBy, Bool.and_eq_true, decide_eq_true_eq] at himp
      exact decide_eq_true himp.1.2
    · intro hvalid
      simp only [improvedBy, Bool.and_eq_true, Bool.or_eq_true, decide_eq_true_eq] at himp
      rcases himp.2 with hnone | hless
      · have hno : s.hasValidLap = false := by simpa [hasValidLap] using hnone
        exact absurd hvalid (by simp [hno])
      · exact hless
  · exact ⟨Or.inr ⟨hlap, rfl⟩, Or.inl rfl⟩

end LapSheet

namespace Driver

/-- The record is still that of the driver in the car; only the active sheet may have changed, and
that one continues. -/
structure Continues (d c : Driver) (lap : Prop) : Prop where
  /-- The driver stays. -/
  guid : c.guid = d.guid
  /-- The car stays. -/
  model : c.model = d.model
  /-- The sheets of other cars stay. -/
  idle : ∀ m, m ≠ d.model → c.sheets.get? m = d.sheets.get? m
  /-- The active sheet continues. -/
  active : ∀ s, d.sheet? = some s → ∃ t, c.sheet? = some t ∧ s.Continues t lap

variable {lap : Prop}

/-- A record with the same driver, car and sheets continues. -/
theorem continues_of_sheets_eq {d c : Driver} (hg : c.guid = d.guid) (hm : c.model = d.model)
    (hs : c.sheets = d.sheets) : d.Continues c lap := by
  refine ⟨hg, hm, ?_, ?_⟩
  · intro m _
    rw [hs]
  · intro s h
    refine ⟨s, ?_, LapSheet.Continues.refl s lap⟩
    rw [sheet?, hm, hs]
    exact h

/-- Further changes outside of driver, car and sheets do not matter. -/
theorem Continues.of_sheets_eq {d c e : Driver} (h : d.Continues c lap) (hg : e.guid = c.guid)
    (hm : e.model = c.model) (hs : e.sheets = c.sheets) : d.Continues e lap := by
  refine ⟨hg.trans h.guid, hm.trans h.model, ?_, ?_⟩
  · intro m hne
    rw [hs]
    exact h.idle m hne
  · intro s hd
    rw [sheet?, hm, hs]
    exact h.active s hd

theorem sheet_eq_of_sheet? {d : Driver} {s : LapSheet} (h : d.sheet? = some s) : d.sheet = s := by
  rw [sheet, h]
  rfl

/-- A record continues when its active sheet is set to one that continues. -/
theorem continues_setSheet {d : Driver} {t : LapSheet}
    (ht : ∀ s, d.sheet? = some s → s.Continues t lap) : d.Continues (d.setSheet t) lap := by
  refine ⟨rfl, rfl, ?_, ?_⟩
  · intro m hm
    show (d.sheets.insert d.model t).get? m = _
    rw [Table.get?_insert, if_neg (Ne.symm hm)]
  · intro s hs
    refine ⟨t, ?_, ht s hs⟩
    show (d.sheets.insert d.model t).get? d.model = _
    rw [Table.get?_insert, if_pos rfl]

theorem continues_load (d : Driver) (now : Instant) : d.Continues (d.load now) lap := by
  rw [load]
  split
  · exact continues_of_sheets_eq rfl rfl rfl
  · exact continues_of_sheets_eq rfl rfl rfl

theorem continues_drive (d : Driver) (t : Telemetry) (now : Instant) :
    d.Continues (d.drive t now) lap := by
  have h : d.Continues (d.setSheet { d.sheet with topSpeed := d.sheet.topSpeed.max t.speed })
      lap := by
    refine continues_setSheet ?_
    intro s hs
    rw [sheet_eq_of_sheet? hs]
    exact ⟨Or.inl rfl, Or.inl rfl⟩
  exact h.of_sheets_eq rfl rfl rfl

theorem continues_collide (d : Driver) (c : Collision) : d.Continues (d.collide c) lap :=
  continues_of_sheets_eq rfl rfl rfl

theorem continues_completeLap (d : Driver) (l : LapReport) (now : Instant) (hlap : lap) :
    d.Continues (d.completeLap l now) lap := by
  have h : d.Continues (d.setSheet (d.sheet.completeLap (nanosOfMillis l.millis) l.cuts
      (if l.tyres.isEmpty then d.car.tyres else l.tyres) now)) lap := by
    refine continues_setSheet ?_
    intro s hs
    rw [sheet_eq_of_sheet? hs]
    exact s.continues_completeLap _ _ _ _ hlap
  exact h.of_sheets_eq rfl rfl rfl

theorem continues_addSplit (d : Driver) (s : Split) : d.Continues (d.addSplit s) lap := by
  refine continues_setSheet ?_
  intro t ht
  rw [sheet_eq_of_sheet? ht]
  exact ⟨Or.inl rfl, Or.inl rfl⟩

end Driver

/-- Whether an event may rearrange records: a snapshot does, and drivers do who come or go. -/
def Event.rearranges : Event → Bool
  | .snapshot _ => true
  | .newConnection _ => true
  | .connectionClosed _ => true
  | _ => false

namespace Board

/-- The driver who completes a lap with an event. -/
def lapper? (b : Board) : Event → Option Guid
  | .lapCompleted l => b.cars.guid? l.carId
  | _ => none

/-- No record comes or goes, the filed ones stay, and the connected ones continue. -/
structure Driven (b c : Board) (lapper : Option Guid) : Prop where
  /-- The filed records stay. -/
  files : c.disconnected = b.disconnected
  /-- Nobody comes. -/
  absent : ∀ g, b.connected.get? g = none → c.connected.get? g = none
  /-- Nobody goes, and the records continue. -/
  present : ∀ g d, b.connected.get? g = some d →
    ∃ c', c.connected.get? g = some c' ∧ d.Continues c' (lapper = some g)

variable {lapper : Option Guid}

theorem Driven.refl (b : Board) : b.Driven b lapper where
  files := rfl
  absent := fun _ h => h
  present := fun _ d h => ⟨d, h, Driver.continues_of_sheets_eq rfl rfl rfl⟩

/-- A record that is connected afterwards was connected before. -/
theorem Driven.before {b c : Board} (h : b.Driven c lapper) {g : Guid} {c' : Driver}
    (hc : c.connected.get? g = some c') :
    ∃ d, b.connected.get? g = some d ∧ d.Continues c' (lapper = some g) := by
  cases hb : b.connected.get? g with
  | none =>
      rw [h.absent g hb] at hc
      cases hc
  | some d =>
      obtain ⟨e, he, hcont⟩ := h.present g d hb
      have heq : e = c' := Option.some.inj (he.symm.trans hc)
      exact ⟨d, rfl, heq ▸ hcont⟩

theorem get?_setDriver (b : Board) (g a : Guid) (d : Driver) :
    (b.setDriver g d).connected.get? a =
      if a = g then (b.connected.get? a).map (fun _ => d) else b.connected.get? a :=
  Keyed.get?_modify _ _ _ _

/-- Setting one record to one that continues drives the board. -/
theorem driven_setDriver {b : Board} {key : Guid} {d c : Driver}
    (hd : b.connected.get? key = some d) (hc : d.Continues c (lapper = some key)) :
    b.Driven (b.setDriver key c) lapper where
  files := rfl
  absent := by
    intro g hg
    rw [get?_setDriver, hg]
    simp
  present := by
    intro g e he
    rw [get?_setDriver]
    by_cases hg : g = key
    · subst hg
      have heq : d = e := Option.some.inj (hd.symm.trans he)
      exact ⟨c, by rw [if_pos rfl, he]; rfl, heq ▸ hc⟩
    · exact ⟨e, by rw [if_neg hg, he], Driver.continues_of_sheets_eq rfl rfl rfl⟩

/-- Markers do not matter. -/
theorem Driven.updateMarker {b c : Board} (h : b.Driven c lapper) (d : Driver)
    (f : Marker → Marker) : b.Driven (c.updateMarker d f) lapper :=
  ⟨h.files, h.absent, h.present⟩

theorem atCar?_eq_some_iff {b : Board} {car : CarId} {key : Guid} {d : Driver} :
    b.atCar? car = some (key, d) ↔
      b.cars.guid? car = some key ∧ b.connected.get? key = some d := by
  rw [atCar?]
  cases hg : b.cars.guid? car with
  | none => simp
  | some g =>
      cases hd : b.connected.get? g with
      | none =>
          have hne : g = key → b.connected.get? key ≠ some d := by
            rintro rfl h
            rw [hd] at h
            cases h
          simpa [hd] using hne
      | some e =>
          simp only [Option.bind_eq_bind, Option.bind_some, hd, Option.pure_def,
            Option.some.injEq, Prod.mk.injEq]
          constructor
          · rintro ⟨rfl, rfl⟩
            exact ⟨rfl, hd⟩
          · rintro ⟨rfl, h⟩
            exact ⟨rfl, Option.some.inj (hd.symm.trans h)⟩

/-- The laps of a leaderboard do not matter: they are no laps of a sheet. -/
theorem Driven.raiseLaps {b c : Board} (h : b.Driven c lapper) (line : LeaderboardLine) :
    b.Driven (c.raiseLaps line) lapper := by
  rw [Board.raiseLaps]
  split
  · exact h
  · next key d hat =>
    obtain ⟨-, hd⟩ := atCar?_eq_some_iff.1 hat
    refine ⟨h.files, ?_, ?_⟩
    · intro g hg
      rw [get?_setDriver, h.absent g hg]
      simp
    · intro g e he
      obtain ⟨c', hc', hcont⟩ := h.present g e he
      rw [get?_setDriver, hc']
      by_cases hg : g = key
      · subst hg
        have heq : d = c' := Option.some.inj (hd.symm.trans hc')
        refine ⟨d.raiseLaps line.laps, by rw [if_pos rfl]; rfl, ?_⟩
        exact (heq ▸ hcont).of_sheets_eq rfl rfl rfl
      · exact ⟨c', by rw [if_neg hg], hcont⟩

/-- A line of the leaderboard sets the laps of a record to those of the line if they are more, and
changes nothing else of it. -/
theorem get?_raiseLaps (b : Board) (line : LeaderboardLine) (g : Guid) :
    ∃ f : UInt32 → UInt32, (∀ n, f n = n ∨ (f n).toNat < UInt16.size) ∧
      (b.raiseLaps line).connected.get? g =
        (b.connected.get? g).map (fun d => { d with totalLaps := f d.totalLaps }) := by
  have hsame : b.connected.get? g =
      (b.connected.get? g).map (fun d => { d with totalLaps := id d.totalLaps }) :=
    Option.map_id'.symm
  rw [Board.raiseLaps]
  split
  · exact ⟨id, fun n => Or.inl rfl, hsame⟩
  · next key d hat =>
    obtain ⟨-, hd⟩ := atCar?_eq_some_iff.1 hat
    by_cases hg : g = key
    · subst hg
      refine ⟨fun n => max n line.laps.toUInt32, fun n => ?_, ?_⟩
      · have hbound : line.laps.toUInt32.toNat < UInt16.size := by
          rw [UInt16.toNat_toUInt32]
          exact line.laps.toNat_lt_size
        show max n line.laps.toUInt32 = n ∨ (max n line.laps.toUInt32).toNat < UInt16.size
        rcases Std.max_eq_or (a := n) (b := line.laps.toUInt32) with h | h
        · exact Or.inl h
        · exact Or.inr (by rw [h]; exact hbound)
      · rw [get?_setDriver, if_pos rfl, hd]
        rfl
    · exact ⟨id, fun n => Or.inl rfl, by rw [get?_setDriver, if_neg hg]; exact hsame⟩

/-- So a leaderboard raises the laps of a record to no more than its lines can say. -/
theorem get?_foldl_raiseLaps (b : Board) (lines : List LeaderboardLine) (g : Guid) :
    ∃ f : UInt32 → UInt32, (∀ n, f n = n ∨ (f n).toNat < UInt16.size) ∧
      (lines.foldl Board.raiseLaps b).connected.get? g =
        (b.connected.get? g).map (fun d => { d with totalLaps := f d.totalLaps }) := by
  induction lines generalizing b with
  | nil => exact ⟨id, fun n => Or.inl rfl, Option.map_id'.symm⟩
  | cons line lines ih =>
      obtain ⟨k, hk, hfirst⟩ := b.get?_raiseLaps line g
      obtain ⟨f, hf, hrest⟩ := ih (b.raiseLaps line)
      refine ⟨fun n => f (k n), fun n => ?_, ?_⟩
      · show f (k n) = n ∨ (f (k n)).toNat < UInt16.size
        rcases hf (k n) with h | h
        · rw [h]
          exact hk n
        · exact Or.inr h
      · rw [List.foldl_cons, hrest, hfirst, Option.map_map]
        rfl

theorem Driven.foldl_raiseLaps {b c : Board} (h : b.Driven c lapper)
    (lines : List LeaderboardLine) : b.Driven (lines.foldl Board.raiseLaps c) lapper := by
  induction lines generalizing c with
  | nil => exact h
  | cons line lines ih => exact ih (h.raiseLaps line)

end Board

namespace Engine

/-- Something is done for the driver in a car, or nothing is. -/
theorem withCar_induction {e : Engine} {car : CarId} {f : Guid → Driver → Engine × Outcome}
    {P : Engine × Outcome → Prop} (hnobody : P (e, .unchanged))
    (hdriver : ∀ key d, e.board.atCar? car = some (key, d) → P (f key d)) :
    P (e.withCar car f) := by
  rw [withCar]
  split
  · exact hnobody
  · next key d hat => exact hdriver key d hat

/-- A driver who leaves is given up or filed, and if nobody is there nothing is done. -/
theorem disconnect_induction {e : Engine} {g : Guid} {P : Engine × Outcome → Prop}
    (habsent : P (e, .unchanged))
    (hpurge : ∀ d, e.board.connected.get? g = some d →
      P (e.setBoard (e.board.purge g), .changed [.driverPurged g]))
    (hleave : ∀ d, e.board.connected.get? g = some d →
      P (e.setBoard ((e.board.remove g).file d), .changed [.driverDisconnected g])) :
    P (e.disconnect g) := by
  rw [disconnect]
  split
  · exact habsent
  · next d hd =>
    split
    · exact hpurge d hd
    · exact hleave d hd

/-- What is done for the driver in a car is done for a connected record. -/
theorem driven_withCar {e : Engine} {car : CarId} {lapper : Option Guid}
    {f : Guid → Driver → Engine × Outcome}
    (hf : ∀ key d, e.board.cars.guid? car = some key → e.board.connected.get? key = some d →
      e.board.Driven (f key d).1.board lapper) :
    e.board.Driven (e.withCar car f).1.board lapper := by
  refine withCar_induction (P := fun p => e.board.Driven p.1.board lapper) (Board.Driven.refl _) ?_
  intro key d hat
  obtain ⟨hg, hd⟩ := Board.atCar?_eq_some_iff.1 hat
  exact hf key d hg hd

/-- **EVENTS ON THE TRACK**: apart from snapshots and drivers who come or go, no event touches a
filed record, and connected ones continue. -/
theorem driven_merge (e : Engine) (now : Instant) {ev : Event} (h : ev.rearranges = false) :
    e.board.Driven (e.merge now ev).1.board (e.board.lapper? ev) := by
  cases ev with
  | snapshot s => cases h
  | newConnection car => cases h
  | connectionClosed car => cases h
  | clientLoaded car =>
      refine driven_withCar ?_
      intro key d _ hd
      exact (Board.driven_setDriver hd (d.continues_load now)).updateMarker _
        (fun m => { m with active := true })
  | carUpdate t =>
      refine driven_withCar ?_
      intro key d _ hd
      exact (Board.driven_setDriver hd (d.continues_drive t now)).updateMarker _ (driveMarker t)
  | collision c =>
      refine driven_withCar ?_
      intro key d _ hd
      exact Board.driven_setDriver hd (d.continues_collide _)
  | lapCompleted l =>
      refine driven_withCar ?_
      intro key d hg hd
      exact (Board.driven_setDriver hd (d.continues_completeLap l now hg)).foldl_raiseLaps _
  | splitCompleted s =>
      refine driven_withCar ?_
      intro key d _ hd
      exact Board.driven_setDriver hd (d.continues_addSplit _)
  | tyresChanged car =>
      refine driven_withCar ?_
      intro key d _ hd
      exact Board.driven_setDriver hd (Driver.continues_of_sheets_eq rfl rfl rfl)
  | chat m => exact Board.Driven.refl _
  | newSession s => exact Board.Driven.refl _
  | sessionInfo s => exact Board.Driven.refl _
  | endSession file => exact Board.Driven.refl _
  | serverError text => exact Board.Driven.refl _
  | ignored tag => exact Board.Driven.refl _

end Engine

end Pitwall
