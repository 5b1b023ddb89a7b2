import Pitwall.Proofs.Engine.Driving

/-!
# Peers — what an event of one driver reads of the others

Two kinds of events on the track look beyond the driver they are about. A collision is recorded with
the identity of the other driver, and a split is judged by the best splits of all. Neither changes
when anybody drives: the new record shows the same to others as the old one
(**`Board.showsAs_recordAfter`**), so the board looks the same to them
(**`Board.looksLike_setDriver`**). And what becomes of a record comes from the record and from that
look alone (**`Board.recordAfter_congr`**).
-/

namespace Pitwall

namespace Driver

/-- Who a driver is to others. -/
def identity (d : Driver) : Guid × String := (d.guid, d.car.driverName)

/-- The splits of a number in the best laps of a driver, in whatever car. -/
def bestSplits (d : Driver) (index : UInt8) : List Split :=
  d.sheets.values.filterMap (fun s => s.bestSplits.get? index)

theorem mem_bestSplits {d : Driver} {index : UInt8} {s : Split} :
    s ∈ d.bestSplits index ↔
      ∃ m t, d.sheets.get? m = some t ∧ t.bestSplits.get? index = some s := by
  simp only [bestSplits, List.mem_filterMap, Table.mem_values_iff]
  constructor
  · rintro ⟨t, ⟨m, hm⟩, hs⟩
    exact ⟨m, t, hm, hs⟩
  · rintro ⟨m, t, hm, hs⟩
    exact ⟨t, ⟨m, hm⟩, hs⟩

/-- Two records of a driver show the same to others. -/
structure ShowsAs (d c : Driver) : Prop where
  /-- The driver is the same. -/
  identity : c.identity = d.identity
  /-- The best laps have the same splits. -/
  splits : ∀ index s, s ∈ c.bestSplits index ↔ s ∈ d.bestSplits index

theorem ShowsAs.guid {d c : Driver} (h : d.ShowsAs c) : c.guid = d.guid :=
  congrArg Prod.fst h.identity

theorem showsAs_of_sheets_eq {d c : Driver} (hi : c.identity = d.identity)
    (hs : c.sheets = d.sheets) : d.ShowsAs c := by
  refine ⟨hi, fun index s => ?_⟩
  rw [bestSplits, bestSplits, hs]

/-- Further changes outside of car and sheets do not show. -/
theorem ShowsAs.of_sheets_eq {d c e : Driver} (h : d.ShowsAs c) (hi : e.identity = c.identity)
    (hs : e.sheets = c.sheets) : d.ShowsAs e := by
  have hce := showsAs_of_sheets_eq hi hs
  exact ⟨hi.trans h.identity, fun index s => (hce.splits index s).trans (h.splits index s)⟩

/-- Setting the active sheet does not show if the splits of its best lap stay. -/
theorem showsAs_setSheet {d : Driver} {t : LapSheet} (ht : t.bestSplits = d.sheet.bestSplits) :
    d.ShowsAs (d.setSheet t) := by
  refine ⟨rfl, fun index s => ?_⟩
  have hget : ∀ m, (d.setSheet t).sheets.get? m =
      if d.model = m then some t else d.sheets.get? m := fun m => Table.get?_insert _ _ _ _
  rw [mem_bestSplits, mem_bestSplits]
  constructor
  · rintro ⟨m, u, hu, hs⟩
    rw [hget] at hu
    split at hu
    · -- a split of the new sheet is one of the old, which is not empty then
      next hm =>
      cases hu
      rw [ht, sheet] at hs
      cases hd : d.sheet? with
      | none =>
          rw [hd] at hs
          cases hs
      | some v =>
          rw [hd] at hs
          exact ⟨d.model, v, hd, hs⟩
    · exact ⟨m, u, hu, hs⟩
  · rintro ⟨m, u, hu, hs⟩
    by_cases hm : d.model = m
    · refine ⟨m, t, by rw [hget, if_pos hm], ?_⟩
      subst hm
      rw [ht, sheet_eq_of_sheet? hu]
      exact hs
    · exact ⟨m, u, by rw [hget, if_neg hm]; exact hu, hs⟩

end Driver

/-! ## Events about one driver -/

namespace Event

/-- The place of the driver that an event is about, of the events that touch one record only. -/
def place? : Event → Option CarId
  | .clientLoaded car => some car
  | .carUpdate t => some t.carId
  | .collision c => some c.carId
  | .splitCompleted s => some s.carId
  | .tyresChanged car => some car.carId
  | _ => none

/-- What such an event does to the marker of the driver, if anything. -/
def marking? : Event → Option (Marker → Marker)
  | .clientLoaded _ => some (fun m => { m with active := true })
  | .carUpdate t => some (Engine.driveMarker t)
  | _ => none

/-- What such an event announces of the driver. -/
def told (g : Guid) : Event → List Notification
  | .clientLoaded _ => [.driverLoaded g]
  | .collision _ => [.collisionRecorded g]
  | .splitCompleted _ => [.splitCompleted g]
  | .tyresChanged car => [.tyresChanged g car.tyres]
  | _ => []

/-- The place of the driver that an event on the track is about, completed laps included. -/
def address? : Event → Option CarId
  | .lapCompleted l => some l.carId
  | ev => ev.place?

end Event

namespace Board

/-- The record that such an event makes of a driver's record. -/
def recordAfter (b : Board) (now : Instant) (d : Driver) : Event → Driver
  | .clientLoaded _ => d.load now
  | .carUpdate t => d.drive t now
  | .collision c =>
    let other := c.otherCarId.bind b.driverByCar?
    d.collide
      { id := d.nextCollisionId
        impact := c.impact
        time := now
        otherGuid := other.map Driver.guid
        otherName := other.map (·.car.driverName)
        speed := c.speed.convert
        damage := c.damage }
  | .splitCompleted s => d.addSplit (d.judgeSplit s (b.bestSplit? s.index))
  | .tyresChanged car => { d with car := { d.car with tyres := car.tyres } }
  | _ => d

/-- The new record shows the same to others. -/
theorem showsAs_recordAfter (b : Board) (now : Instant) (d : Driver) (ev : Event) :
    d.ShowsAs (b.recordAfter now d ev) := by
  cases ev with
  | clientLoaded car =>
      show d.ShowsAs (d.load now)
      rw [Driver.load]
      split
      · exact Driver.showsAs_of_sheets_eq rfl rfl
      · exact Driver.showsAs_of_sheets_eq rfl rfl
  | carUpdate t =>
      have hset : d.ShowsAs
          (d.setSheet { d.sheet with topSpeed := d.sheet.topSpeed.max t.speed }) :=
        Driver.showsAs_setSheet rfl
      exact hset.of_sheets_eq rfl rfl
  | splitCompleted s => exact Driver.showsAs_setSheet rfl
  | _ => exact Driver.showsAs_of_sheets_eq rfl rfl

/-! ## What others see -/

/-- Boards that look the same to whoever is not touched: the places, the drivers in them and the
best splits. -/
structure LooksLike (b c : Board) : Prop where
  cars : c.cars = b.cars
  /-- In each place is the same driver. -/
  identities : ∀ car, (c.driverByCar? car).map Driver.identity =
    (b.driverByCar? car).map Driver.identity
  /-- The times to beat are the same. -/
  splits : ∀ index, c.bestSplit? index = b.bestSplit? index

/-- What becomes of a record comes from the record and the look of the board alone. -/
theorem recordAfter_congr {b c : Board} (h : b.LooksLike c) (now : Instant) (d : Driver)
    (ev : Event) : c.recordAfter now d ev = b.recordAfter now d ev := by
  cases ev with
  | collision r =>
      have hother : (r.otherCarId.bind c.driverByCar?).map Driver.identity =
          (r.otherCarId.bind b.driverByCar?).map Driver.identity := by
        cases r.otherCarId with
        | none => rfl
        | some car => exact h.identities car
      have hguid : (r.otherCarId.bind c.driverByCar?).map Driver.guid =
          (r.otherCarId.bind b.driverByCar?).map Driver.guid := by
        have hfst := congrArg (Option.map Prod.fst) hother
        rw [Option.map_map, Option.map_map] at hfst
        exact hfst
      have hname : (r.otherCarId.bind c.driverByCar?).map (·.car.driverName) =
          (r.otherCarId.bind b.driverByCar?).map (·.car.driverName) := by
        have hsnd := congrArg (Option.map Prod.snd) hother
        rw [Option.map_map, Option.map_map] at hsnd
        exact hsnd
      simp only [recordAfter, hguid, hname]
  | splitCompleted s =>
      show d.addSplit (d.judgeSplit s _) = d.addSplit (d.judgeSplit s _)
      rw [h.splits]
  | _ => rfl

/-- The best split of all is the least of the times in the best laps, whoever has driven them. -/
theorem bestSplit?_congr {b c : Board} {index : UInt8}
    (h : ∀ s, (∃ d ∈ c.connected.values, s ∈ d.bestSplits index) ↔
      ∃ d ∈ b.connected.values, s ∈ d.bestSplits index) :
    c.bestSplit? index = b.bestSplit? index := by
  have hmem : ∀ s, s ∈ c.connected.values.flatMap (Driver.bestSplits · index) ↔
      s ∈ b.connected.values.flatMap (Driver.bestSplits · index) := by
    intro s
    rw [List.mem_flatMap, List.mem_flatMap]
    exact h s
  refine Option.ext fun t => ?_
  show (((c.connected.values.flatMap (Driver.bestSplits · index)).filter _).map _).min? = _ ↔
    (((b.connected.values.flatMap (Driver.bestSplits · index)).filter _).map _).min? = _
  simp only [List.min?_eq_some_iff, List.mem_map, List.mem_filter, hmem]

/-- A record that shows the same as the one before does not change the look of the board. -/
theorem looksLike_setDriver {b : Board} {g : Guid} {d r : Driver}
    (hd : b.connected.get? g = some d) (hr : d.ShowsAs r) : b.LooksLike (b.setDriver g r) where
  cars := rfl
  identities := by
    intro car
    show (b.cars.guid? car >>= (b.setDriver g r).connected.get?).map _ =
      (b.cars.guid? car >>= b.connected.get?).map _
    cases b.cars.guid? car with
    | none => rfl
    | some a =>
        show ((b.setDriver g r).connected.get? a).map _ = (b.connected.get? a).map _
        rw [get?_setDriver]
        split
        · next ha =>
          rw [ha, hd]
          exact congrArg some hr.identity
        · rfl
  splits := by
    intro index
    refine bestSplit?_congr fun s => ?_
    simp only [Keyed.mem_values_iff, get?_setDriver]
    constructor
    · rintro ⟨e, ⟨a, ha⟩, hs⟩
      split at ha
      · next hag =>
        rw [hag, hd] at ha
        cases ha
        exact ⟨d, ⟨g, hd⟩, (hr.splits index s).1 hs⟩
      · exact ⟨e, ⟨a, ha⟩, hs⟩
    · rintro ⟨e, ⟨a, ha⟩, hs⟩
      by_cases hag : a = g
      · subst hag
        rw [hd] at ha
        cases ha
        exact ⟨r, ⟨a, by rw [if_pos rfl, hd]; rfl⟩, (hr.splits index s).2 hs⟩
      · exact ⟨e, ⟨a, by rw [if_neg hag]; exact ha⟩, hs⟩

end Board

end Pitwall
