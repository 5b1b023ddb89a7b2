import Pitwall.Proofs.Board.SameRecords
import Pitwall.Proofs.Engine.Leaving

/-!
# Returning — who leaves after a usable stint comes back with the whole record

A driver who leaves after a usable stint is filed once for each car, and each of these files is the
whole record in another car (**`Board.exists_filed_of_file`**). So whichever of the cars the driver
comes back in, and whatever older files there were, the record that is picked up is the one that
was filed: **`Engine.connected_after_return`**.
-/

namespace Pitwall

namespace Driver

/-- What adding a sheet for a car does to the record. -/
theorem addSheet_eq (d : Driver) (car : CarInfo) :
    d.addSheet car =
      { d with
        sheets := if d.sheets.contains car.model then d.sheets
          else d.sheets.insert car.model (.ofCar car) } := by
  rw [addSheet, Table.contains_eq_isSome]
  cases d.sheets.get? car.model <;> rfl

end Driver

namespace Board

/-- Filing a driver leaves the whole record under every car of it, whatever was filed before. -/
theorem exists_filed_of_file (b : Board) {d : Driver} {m : String}
    (hm : m = d.model ∨ ∃ s, d.sheets.get? m = some s) :
    ∃ car, (b.file d).disconnected.get? ⟨d.guid, m⟩ = some { d with car } := by
  rw [get?_file, Driver.variantAt?]
  cases hs : d.sheets.get? m with
  | some s =>
      -- a car with a sheet has its own variant
      have hkey : m ∈ d.sheets.keys := Table.mem_keys_iff.2 ⟨s, hs⟩
      rw [if_pos ⟨rfl, hkey⟩, Driver.variant?, hs]
      exact ⟨_, rfl⟩
  | none =>
      have hkey : m ∉ d.sheets.keys := Table.get?_eq_none_iff.1 hs
      obtain rfl : m = d.model := by
        rcases hm with hm | ⟨s, hs'⟩
        · exact hm
        · rw [hs] at hs'
          cases hs'
      rw [if_neg (fun h => hkey h.2), if_pos ⟨rfl, hkey⟩]
      exact ⟨d.car, rfl⟩

/-- A driver who comes back in a car of the filed record picks it up. -/
theorem joining_file {b : Board} {d : Driver} {car : CarInfo} (now : Instant)
    (hnone : b.connected.get? car.guid = none) (hg : car.guid = d.guid)
    (hm : car.model = d.model ∨ ∃ s, d.sheets.get? car.model = some s) :
    (b.file d).joining car now = resumed d car now := by
  obtain ⟨old, hfile⟩ := b.exists_filed_of_file hm
  rw [← hg] at hfile
  have hconn : (b.file d).connected.get? car.guid = none := hnone
  rw [joining, hconn]
  show (b.file d).arriving car now = _
  rw [arriving_eq, history?_eq_of_filed hfile]
  exact resumed_setCar d old car now

end Board

namespace Engine

/-- Who leaves after a usable stint is taken off and filed. -/
theorem board_disconnect_of_stint {e : Engine} {g : Guid} {d : Driver}
    (hd : e.board.connected.get? g = some d) (hloaded : d.isLoaded) (hlaps : 0 < d.totalLaps) :
    (e.disconnect g).1.board = (e.board.remove g).file d := by
  have hstint : d.hasStint = true := by
    rw [← Bool.not_eq_false, Driver.hasStint_eq_false_iff]
    rintro (hnot | h0)
    · rw [hloaded] at hnot
      cases hnot
    · rw [h0] at hlaps
      exact absurd hlaps (by decide)
  rw [disconnect_eq hd]
  show (e.board.remove g).fileAll d.leftBehind = _
  rw [Driver.leftBehind, if_pos hstint]
  rfl

/-- **LEAVING AND COMING BACK KEEPS THE RECORD**: in every state that can be reached, a driver who
has loaded and completed laps leaves and connects again, in the active car or any other car of the
record. Then the record is the one that the driver left with, apart from the car announced and the
times of this connection, and an empty lap sheet is added if there was none for the car. So laps,
collisions and all lap sheets come back unchanged. -/
theorem connected_after_return {e : Engine} (he : e.Reachable) {g : Guid} {d : Driver}
    (hd : e.board.connected.get? g = some d) (hloaded : d.isLoaded) (hlaps : 0 < d.totalLaps)
    {left car : CarInfo} (hleft : left.guid = g) (hcar : car.guid = g)
    (hmodel : car.model = d.model ∨ ∃ s, d.sheets.get? car.model = some s) (t now : Instant) :
    let gone := (e.apply (.connectionClosed left) t).1
    let back := (gone.apply (.newConnection car) now).1
    let r : Driver :=
      { d with
        car, connectedAt := now, loadedAt := .zero, lastSeen := now
        sheets := if d.sheets.contains car.model then d.sheets
          else d.sheets.insert car.model (.ofCar car) }
    back.board.connected.get? g = some r ∧
      r.totalLaps = d.totalLaps ∧ r.collisions = d.collisions ∧
      ∀ m s, d.sheets.get? m = some s → r.sheets.get? m = some s := by
  intro gone back r
  have hown : d.guid = g := he.filed.own g d hd
  have hgone : gone.board = (e.board.remove g).file d := by
    show (disconnect { e with lastAppliedAt := some t } left.guid).1.board = _
    rw [hleft]
    exact board_disconnect_of_stint (e := { e with lastAppliedAt := some t }) hd hloaded hlaps
  have hback : back.board = ((e.board.remove g).file d).connect car now := by
    rw [← hgone]
    rfl
  refine ⟨?_, rfl, rfl, ?_⟩
  · have hnone : (e.board.remove g).connected.get? car.guid = none := by
      show (e.board.connected.erase g).get? car.guid = none
      rw [Keyed.get?_erase, if_pos hcar]
    rw [hback, Board.get?_connected_connect, if_pos hcar.symm,
      Board.joining_file now hnone (hcar.trans hown.symm) hmodel, Board.resumed, Driver.addSheet_eq]
  · intro m s hs
    show (if _ then _ else _ : Table String LapSheet).get? m = some s
    split
    · exact hs
    · next hnew =>
      -- the sheet that is added is one of a car that had none
      have hne : car.model ≠ m := by
        rintro rfl
        rw [Table.contains_eq_isSome, hs] at hnew
        exact hnew rfl
      rw [Table.get?_insert, if_neg hne]
      exact hs

/-- A driver completes a lap in one car, changes to another one, leaves and comes back in the first:
the lap is there, and so is the sheet of the other car. -/
theorem connected_after_return_in_first_car :
    let car : CarInfo := { carId := 1, driverName := "Ann", guid := ⟨"a"⟩, model := "m3" }
    let now : Instant := ⟨100, 0, by decide, by decide, by decide, by decide⟩
    let e := initial.run
      [.event (.newConnection car) now,
       .event (.clientLoaded 1) now,
       .event (.lapCompleted { carId := 1, millis := 80000 }) now,
       .event (.newConnection { car with model := "z4" }) now]
    let back := ((e.apply (.connectionClosed car) now).1.apply (.newConnection car) now).1
    ∃ d, e.Reachable ∧ e.board.connected.get? ⟨"a"⟩ = some d ∧ d.isLoaded ∧ 0 < d.totalLaps ∧
      back.board.connected.get? ⟨"a"⟩ =
        some { d with car, connectedAt := now, loadedAt := .zero, lastSeen := now } ∧
      d.model = "z4" ∧ d.sheets.keys = ["m3", "z4"] := by
  intro car now e back
  have he : e.Reachable := ⟨_, rfl⟩
  obtain ⟨d, hd, hloaded, hlaps, hkeys, hmodel⟩ : ∃ d ∈ e.board.connected.get? ⟨"a"⟩,
      d.isLoaded = true ∧ 0 < d.totalLaps ∧ d.sheets.keys = ["m3", "z4"] ∧ d.model = "z4" := by
    decide +kernel
  have hkey : "m3" ∈ d.sheets.keys := by
    rw [hkeys]
    exact List.mem_cons_self
  have hann : car.guid = ⟨"a"⟩ := rfl
  obtain ⟨hback, -⟩ := connected_after_return he hd hloaded hlaps hann hann
    (Or.inr (Table.mem_keys_iff.1 hkey)) now now
  have hhas : d.sheets.contains car.model = true := decide_eq_true hkey
  rw [if_pos hhas] at hback
  exact ⟨d, he, hd, hloaded, hlaps, hback, hmodel, hkeys⟩

end Engine

end Pitwall
