import Pitwall.Proofs.Board.Bystanders
import Pitwall.Proofs.Board.Seating
import Pitwall.Proofs.Board.Slots
import Pitwall.Proofs.Engine.History

/-!
# Connecting — all that becomes of a driver who connects

A driver who connects is known and connected already, comes back, or is new. In each case the record
is that of the car announced, and the files, the place and the marker follow from it
(**`Board.get?_files_connect`**). The others keep what they have, except for the place if somebody
else held it: **`Engine.connects_exactly`**.
-/

namespace Pitwall

namespace Board

/-- The files of a driver who has connected: none of the car driven, the record itself in each other
car that it has a sheet for, and what was on file of cars that it does not know. -/
theorem get?_files_connect (b : Board) (car : CarInfo) (now : Instant) (m : String) :
    (b.connect car now).disconnected.get? ⟨car.guid, m⟩ =
      if m = car.model then none
      else ((b.joining car now).variant? m).or (b.disconnected.get? ⟨car.guid, m⟩) := by
  have hentered : (b.entering car now).connected.get? car.guid = some (b.joining car now) := by
    show (b.connected.insert _ _).get? _ = _
    rw [Keyed.get?_insert, if_pos rfl]
  have hfiles := get?_sync_own (k := ⟨car.guid, m⟩) hentered (b.guid_joining car now)
  rw [model_joining] at hfiles
  exact hfiles

/-- A driver who was connected keeps the place in the order, anyone else is put at its end. -/
theorem keys_connect (b : Board) (car : CarInfo) (now : Instant) :
    (b.connect car now).connected.keys =
      if car.guid ∈ b.connected.keys then b.connected.keys
      else b.connected.keys ++ [car.guid] := by
  show ((b.entering car now).sync car.guid).connected.keys = _
  rw [connected_sync]
  exact Keyed.keys_insert _ _ _

end Board

namespace Engine

/-- **CONNECTING DOES WHAT IT SHOULD, AND NO MORE**. Whoever connects has a record with the car that
was announced and a lap sheet for it, and whoever was connected before keeps all lap sheets and the
place in the order; the others come last. The car driven is not on file, while the record is filed
in every other car that it has a sheet for. The place announced is bound to the driver, who has no
other one. The marker is new and not drawn. Of all others the records, files and markers stay, in
their order, and so do the places, unless one of them held the place announced. -/
theorem connects_exactly (e : Engine) (car : CarInfo) (now : Instant) :
    let b := e.board
    let c := (e.apply (.newConnection car) now).1.board
    let g := car.guid
    (∃ d s, c.connected.get? g = some d ∧ d.car = car ∧ d.sheets.get? car.model = some s ∧
      (∀ old m t, b.connected.get? g = some old → old.sheets.get? m = some t →
        d.sheets.get? m = some t) ∧
      ∀ m, c.disconnected.get? ⟨g, m⟩ =
        if m = car.model then none else (d.variant? m).or (b.disconnected.get? ⟨g, m⟩)) ∧
    c.connected.keys =
      (if g ∈ b.connected.keys then b.connected.keys else b.connected.keys ++ [g]) ∧
    (∀ a h, c.cars.guid? a = some h ↔
      (a = car.carId ∧ h = g) ∨ (a ≠ car.carId ∧ h ≠ g ∧ b.cars.guid? a = some h)) ∧
    c.markers.get? g = some { guid := g, initials := car.initials, active := false } ∧
    b.SameButFor c g := by
  intro b c g
  have hc : c = b.connect car now := rfl
  obtain ⟨s, hs⟩ := b.exists_sheet_joining car now
  refine ⟨⟨b.joining car now, s, ?_, b.car_joining car now, hs, ?_, ?_⟩, ?_, ?_, ?_, ?_⟩
  · rw [hc, Board.get?_connected_connect, if_pos rfl]
  · intro old m t hold ht
    exact Board.sheet_joining hold ht
  · intro m
    rw [hc]
    exact b.get?_files_connect car now m
  · rw [hc]
    exact b.keys_connect car now
  · intro a h
    rw [hc, Board.cars_connect]
    exact Occupancy.guid?_insert_iff _ _ _ _ _
  · rw [hc, Board.markers_connect, Table.get?_insert, if_pos rfl]
    rfl
  · rw [hc]
    exact b.sameButFor_connect car now

/-- A driver with a lap changes to another car, in the place of another driver: the lap stays, and
the other driver stays without the place. -/
theorem connects_exactly_in_taken_place :
    let ann : CarInfo := { carId := 1, guid := ⟨"a"⟩, model := "m3" }
    let e := initial.run
      [.event (.newConnection ann) .zero,
       .event (.lapCompleted { carId := 1, millis := 80000 }) .zero,
       .event (.newConnection { carId := 2, guid := ⟨"b"⟩, model := "m3" }) .zero]
    let c := (e.apply (.newConnection { ann with carId := 2, model := "z4" }) .zero).1.board
    (∃ old t, e.board.connected.get? ⟨"a"⟩ = some old ∧ old.sheets.get? "m3" = some t ∧ t.laps = 1 ∧
      ∃ d, c.connected.get? ⟨"a"⟩ = some d ∧ d.sheets.get? "m3" = some t) ∧
    c.connected.keys = [⟨"a"⟩, ⟨"b"⟩] ∧ c.disconnected.get? ⟨⟨"a"⟩, "z4"⟩ = none ∧
      c.cars.guid? 2 = some ⟨"a"⟩ ∧ c.cars.guid? 1 = none ∧
      c.connected.get? ⟨"b"⟩ = e.board.connected.get? ⟨"b"⟩ := by
  intro ann e c
  obtain ⟨⟨d, -, hd, -, -, hkept, hfiles⟩, hkeys, hplaces, -, hothers⟩ :=
    connects_exactly e { ann with carId := 2, model := "z4" } .zero
  obtain ⟨old, hold, t, ht, hlap⟩ : ∃ old ∈ e.board.connected.get? ⟨"a"⟩,
      ∃ t ∈ old.sheets.get? "m3", t.laps = 1 := by decide +kernel
  have hbefore : e.board.connected.keys = [⟨"a"⟩, ⟨"b"⟩] := by decide +kernel
  refine ⟨⟨old, t, hold, ht, hlap, d, hd, hkept old "m3" t hold ht⟩, ?_, ?_, ?_, ?_, ?_⟩
  · rw [hkeys, hbefore]
    rfl
  · rw [hfiles "z4", if_pos rfl]
  · exact (hplaces 2 ⟨"a"⟩).2 (.inl ⟨rfl, rfl⟩)
  · -- nobody is bound to the place that was left
    cases hplace : c.cars.guid? 1 with
    | none => rfl
    | some h =>
        have hbound : e.board.cars.guid? 1 = some ⟨"a"⟩ := by decide +kernel
        rcases (hplaces 1 h).1 hplace with ⟨hone, -⟩ | ⟨-, hne, hold⟩
        · exact absurd hone (by decide)
        · exact absurd (Option.some.inj (hold.symm.trans hbound)) hne
  · exact hothers.get?_connected (by decide)

end Engine

end Pitwall
