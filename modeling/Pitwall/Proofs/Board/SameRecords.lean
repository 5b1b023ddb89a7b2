import Pitwall.Engine.Driving
import Pitwall.Proofs.Board.Filing

/-!
# Same records — boards that differ in their display orders

Two boards hold the **`Board.SameRecords`** if they differ at most in the orders of their two maps.
What is done to a board looks records up by their keys, so it does the same to both, whatever the
orders are. The one exception are drivers who come back: where no record of the car is filed, the
one that stands last is picked up. So **`Board.SameRecords.connect`** needs that the drivers arrive
with the same record, which they do where their files leave no choice
(**`Board.SameRecords.arriving_eq`**).
-/

namespace Pitwall.Board

/-! ## Picking up a record -/

/-- What is picked up is a file of the driver. -/
theorem exists_filed_of_history? {b : Board} {car : CarInfo} {r : Driver}
    (h : b.history? car = some r) : ∃ m, b.disconnected.get? ⟨car.guid, m⟩ = some r := by
  have hmem : ∃ k, (k, r) ∈ b.disconnected.entries.filter (fun e => e.1.guid = car.guid) := by
    rw [history?] at h
    split at h
    · next e he =>
      cases h
      exact ⟨e.1, List.mem_of_find?_eq_some he⟩
    · obtain ⟨e, he, rfl⟩ := Option.map_eq_some_iff.1 h
      exact ⟨e.1, List.mem_of_getLast? he⟩
  obtain ⟨k, hk⟩ := hmem
  obtain ⟨hk, hg⟩ := List.mem_filter.1 hk
  obtain ⟨g, m⟩ := k
  obtain rfl : g = car.guid := of_decide_eq_true hg
  exact ⟨m, Keyed.get?_eq_some_iff.2 hk⟩

/-- Something is picked up if the driver has a file. -/
theorem history?_isSome {b : Board} {car : CarInfo} {m : String} {r : Driver}
    (h : b.disconnected.get? ⟨car.guid, m⟩ = some r) : ∃ q, b.history? car = some q := by
  have hmem : (⟨car.guid, m⟩, r) ∈
      b.disconnected.entries.filter (fun e => e.1.guid = car.guid) :=
    List.mem_filter.2 ⟨Keyed.get?_eq_some_iff.1 h, by simp⟩
  rw [history?]
  split
  · next e _ => exact ⟨e.2, rfl⟩
  · obtain ⟨e, he⟩ := Option.ne_none_iff_exists'.1
      (mt List.getLast?_eq_none_iff.1 (List.ne_nil_of_mem hmem))
    exact ⟨e.2, by rw [he]; rfl⟩

/-- The file of the car is picked up if there is one. -/
theorem history?_eq_of_filed {b : Board} {car : CarInfo} {r : Driver}
    (h : b.disconnected.get? ⟨car.guid, car.model⟩ = some r) : b.history? car = some r := by
  have hmem : (⟨car.guid, car.model⟩, r) ∈
      b.disconnected.entries.filter (fun e => e.1.guid = car.guid) :=
    List.mem_filter.2 ⟨Keyed.get?_eq_some_iff.1 h, by simp⟩
  rw [history?]
  split
  · next e he =>
    -- the car has one slot only, so what is found is its file
    obtain ⟨hin, hg⟩ := List.mem_filter.1 (List.mem_of_find?_eq_some he)
    have hm := List.find?_some he
    have hslot : e.1 = ⟨car.guid, car.model⟩ := by
      rw [← of_decide_eq_true hg, ← of_decide_eq_true hm]
    have hfound : b.disconnected.get? e.1 = some e.2 := Keyed.get?_eq_some_iff.2 hin
    rw [hslot, h] at hfound
    exact hfound.symm
  · next hnone =>
    have hno := List.find?_eq_none.1 hnone _ hmem
    simp at hno

/-- The record of a driver who comes back with a file. -/
def resumed (r : Driver) (car : CarInfo) (now : Instant) : Driver :=
  { r.addSheet car with car, connectedAt := now, loadedAt := .zero, lastSeen := now }

theorem arriving_eq (b : Board) (car : CarInfo) (now : Instant) :
    b.arriving car now = (b.history? car).elim (.ofCar car now) (resumed · car now) := by
  rw [arriving]
  split
  · next h => rw [h]; rfl
  · next r h => rw [h]; rfl

/-- The car in which a file stands is forgotten. -/
theorem resumed_setCar (r : Driver) (old car : CarInfo) (now : Instant) :
    resumed { r with car := old } car now = resumed r car now := by
  rw [resumed, resumed, Driver.addSheet, Driver.addSheet]
  cases r.sheets.get? car.model <;> rfl

/-- The files of a driver leave no choice when the driver comes back in a car: the car is filed, or
all files are the same record in different cars. -/
def LeavesNoChoice (b : Board) (car : CarInfo) : Prop :=
  (∃ r, b.disconnected.get? ⟨car.guid, car.model⟩ = some r) ∨
    ∀ m n r q, b.disconnected.get? ⟨car.guid, m⟩ = some r →
      b.disconnected.get? ⟨car.guid, n⟩ = some q → { r with car := q.car } = q

/-- The boards differ at most in the orders of the records. -/
structure SameRecords (b c : Board) : Prop where
  connected : b.connected.Agrees c.connected
  disconnected : b.disconnected.Agrees c.disconnected
  /-- All but the records is equal. -/
  rest : { b with connected := .empty, disconnected := .empty } =
    { c with connected := .empty, disconnected := .empty }

namespace SameRecords

variable {b c : Board}

theorem refl (b : Board) : b.SameRecords b := ⟨fun _ => rfl, fun _ => rfl, rfl⟩

theorem symm (h : b.SameRecords c) : c.SameRecords b :=
  ⟨fun g => (h.connected g).symm, fun k => (h.disconnected k).symm, h.rest.symm⟩

theorem trans {d : Board} (h : b.SameRecords c) (h' : c.SameRecords d) : b.SameRecords d :=
  ⟨fun g => (h.connected g).trans (h'.connected g),
    fun k => (h.disconnected k).trans (h'.disconnected k), h.rest.trans h'.rest⟩

theorem cars_eq (h : b.SameRecords c) : b.cars = c.cars := (congrArg Board.cars h.rest :)

theorem markers_eq (h : b.SameRecords c) : b.markers = c.markers :=
  (congrArg Board.markers h.rest :)

/-! ## Looking up -/

theorem atCar?_eq (h : b.SameRecords c) (car : CarId) : b.atCar? car = c.atCar? car := by
  simp only [atCar?, h.cars_eq, h.connected _]

theorem driverByCar?_eq (h : b.SameRecords c) : b.driverByCar? = c.driverByCar? := by
  have hget : b.connected.get? = c.connected.get? := funext h.connected
  funext car
  rw [driverByCar?, driverByCar?, h.cars_eq, hget]

/-- The best split of all is the least of some times, which do not come in an order. -/
theorem bestSplit?_eq (h : b.SameRecords c) (index : UInt8) :
    b.bestSplit? index = c.bestSplit? index := by
  refine Option.ext fun t => ?_
  simp only [bestSplit?, List.min?_eq_some_iff, List.mem_map, List.mem_filter, List.mem_flatMap,
    h.connected.mem_values_iff]

/-! ## Filing -/

theorem fileAll (h : b.SameRecords c) (records : List Driver) :
    (b.fileAll records).SameRecords (c.fileAll records) := by
  induction records generalizing b c with
  | nil => exact h
  | cons r rs ih =>
      rw [fileAll_cons, fileAll_cons]
      exact ih ⟨h.connected, h.disconnected.insert r.slot r, h.rest⟩

theorem sync (h : b.SameRecords c) (g : Guid) : (b.sync g).SameRecords (c.sync g) := by
  cases hg : c.connected.get? g with
  | none =>
      rw [sync_of_none ((h.connected g).trans hg), sync_of_none hg]
      exact h
  | some d =>
      rw [sync_of_some ((h.connected g).trans hg), sync_of_some hg]
      have herased : SameRecords { b with disconnected := b.disconnected.erase d.slot }
          { c with disconnected := c.disconnected.erase d.slot } :=
        ⟨h.connected, h.disconnected.erase d.slot, h.rest⟩
      exact herased.fileAll _

theorem remove (h : b.SameRecords c) (g : Guid) : (b.remove g).SameRecords (c.remove g) where
  connected := h.connected.erase g
  disconnected := h.disconnected
  rest := congrArg (fun x : Board =>
    { x with cars := (x.cars.remove g).1, markers := x.markers.erase g }) h.rest

theorem purge (h : b.SameRecords c) (g : Guid) : (b.purge g).SameRecords (c.purge g) := by
  cases hg : c.connected.get? g with
  | none =>
      rw [purge_of_none ((h.connected g).trans hg), purge_of_none hg]
      exact h.remove g
  | some d =>
      rw [purge_of_some ((h.connected g).trans hg), purge_of_some hg]
      exact (h.remove g).fileAll _

/-! ## Driving -/

theorem setDriver (h : b.SameRecords c) (g : Guid) (d : Driver) :
    (b.setDriver g d).SameRecords (c.setDriver g d) :=
  ⟨h.connected.modify g _, h.disconnected, h.rest⟩

theorem updateMarker (h : b.SameRecords c) (d : Driver) (f : Marker → Marker) :
    (b.updateMarker d f).SameRecords (c.updateMarker d f) where
  connected := h.connected
  disconnected := h.disconnected
  rest := congrArg (fun x : Board => x.updateMarker d f) h.rest

theorem raiseLaps (h : b.SameRecords c) (line : LeaderboardLine) :
    (b.raiseLaps line).SameRecords (c.raiseLaps line) := by
  rw [Board.raiseLaps, Board.raiseLaps, h.atCar?_eq]
  cases c.atCar? line.carId with
  | none => exact h
  | some p => exact h.setDriver _ _

theorem foldl_raiseLaps (h : b.SameRecords c) (lines : List LeaderboardLine) :
    (lines.foldl Board.raiseLaps b).SameRecords (lines.foldl Board.raiseLaps c) := by
  induction lines generalizing b c with
  | nil => exact h
  | cons line lines ih => exact ih (h.raiseLaps line)

/-! ## Connecting -/

/-- Drivers who connect leave the same records where they arrive with the same one. -/
theorem connect (h : b.SameRecords c) {car : CarInfo} {now : Instant}
    (harrive : b.connected.get? car.guid = none → b.arriving car now = c.arriving car now) :
    (b.connect car now).SameRecords (c.connect car now) := by
  have hjoin : b.joining car now = c.joining car now := by
    rw [joining, joining, ← h.connected car.guid]
    cases hg : b.connected.get? car.guid with
    | none => exact harrive hg
    | some d => rfl
  have henter : (b.entering car now).SameRecords (c.entering car now) := by
    refine ⟨?_, h.disconnected, ?_⟩
    · rw [entering, entering, hjoin]
      exact h.connected.insert _ _
    · exact congrArg (fun x : Board => { x with cars := x.cars.insert car.carId car.guid }) h.rest
  have hsync := henter.sync car.guid
  rw [connect_eq, connect_eq]
  exact ⟨hsync.connected, hsync.disconnected,
    congrArg (fun x : Board => { x with markers := x.markers.insert car.guid (.ofCar car) })
      hsync.rest⟩

/-- Drivers arrive with the same record where their files leave no choice. -/
theorem arriving_eq (h : b.SameRecords c) {car : CarInfo} (hsure : b.LeavesNoChoice car)
    (now : Instant) : b.arriving car now = c.arriving car now := by
  rw [Board.arriving_eq, Board.arriving_eq]
  rcases hsure with ⟨r, hr⟩ | hsame
  · rw [history?_eq_of_filed hr, history?_eq_of_filed ((h.disconnected _).symm.trans hr)]
  · cases hb : b.history? car with
    | none =>
        -- no file at all, so there is none on the other board either
        cases hc : c.history? car with
        | none => rfl
        | some q =>
            obtain ⟨n, hn⟩ := exists_filed_of_history? hc
            obtain ⟨r, hr⟩ := history?_isSome ((h.disconnected _).trans hn)
            rw [hb] at hr
            cases hr
    | some r =>
        obtain ⟨m, hm⟩ := exists_filed_of_history? hb
        obtain ⟨q, hq⟩ := history?_isSome ((h.disconnected _).symm.trans hm)
        obtain ⟨n, hn⟩ := exists_filed_of_history? hq
        have hrq : { r with car := q.car } = q := hsame m n r q hm ((h.disconnected _).trans hn)
        rw [hq]
        calc resumed r car now
            = resumed { r with car := q.car } car now := (resumed_setCar r q.car car now).symm
          _ = resumed q car now := by rw [hrq]

end SameRecords

end Pitwall.Board
