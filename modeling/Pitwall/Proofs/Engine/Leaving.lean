import Pitwall.Proofs.Board.Bystanders
import Pitwall.Proofs.Board.Seating
import Pitwall.Proofs.Board.Slots
import Pitwall.Proofs.Engine.Filed

/-!
# Leaving — all that becomes of a driver who leaves

There are two ways to leave. After a usable stint the whole record goes on file; without one only
the cars with laps do. Either way the driver is taken off first and some records are filed then
(**`Engine.disconnect_eq`**), so what holds of taking off and of filing holds of both ways: the
others keep what they have (**`Board.sameButFor_leave`**), and the files stay where they are, with
new ones behind them (**`Board.keys_prefix_fileAll`**). **`Engine.leaves_exactly`** says what is
filed in each case.
-/

namespace Pitwall

namespace Keyed

variable {κ ν : Type} [DecidableEq κ]

/-- Inserting overwrites in place or appends. -/
theorem keys_prefix_insert (m : Keyed κ ν) (k : κ) (v : ν) : m.keys <+: (m.insert k v).keys := by
  rw [keys_insert]
  split
  · exact List.prefix_rfl
  · exact List.prefix_append _ _

end Keyed

namespace Driver

variable {d : Driver}

/-- Whether the driver has loaded and completed laps. -/
def hasStint (d : Driver) : Bool := d.isLoaded && d.totalLaps != 0

/-- The records that go on file when the driver leaves. -/
def leftBehind (d : Driver) : List Driver :=
  if d.hasStint then Board.filing d else d.variants d.lappedModels

/-- A driver leaves nobody else's records behind. -/
theorem guid_of_mem_leftBehind {r : Driver} (h : r ∈ d.leftBehind) : r.guid = d.guid := by
  rw [leftBehind] at h
  split at h
  · exact Board.guid_of_mem_filing h
  · exact guid_of_mem_variants h

theorem hasStint_eq_false_iff : d.hasStint = false ↔ d.isLoaded = false ∨ d.totalLaps = 0 := by
  rw [hasStint, Bool.and_eq_false_iff, bne_eq_false_iff_eq]

end Driver

namespace Board

/-- Files keep their places; new ones come last. -/
theorem keys_prefix_fileAll (b : Board) (rs : List Driver) :
    b.disconnected.keys <+: (b.fileAll rs).disconnected.keys := by
  induction rs generalizing b with
  | nil => exact List.prefix_rfl
  | cons r rs ih =>
      have hfirst : b.disconnected.keys <+: (b.disconnected.insert r.slot r).keys :=
        b.disconnected.keys_prefix_insert r.slot r
      rw [fileAll_cons]
      exact hfirst.trans (ih { b with disconnected := b.disconnected.insert r.slot r })

/-- Taking a driver off does not matter to the others. -/
theorem sameButFor_remove (b : Board) (g : Guid) : b.SameButFor (b.remove g) g where
  connected := Keyed.part_erase (p := fun a => a ≠ g) _ (decide_eq_false (fun h => h rfl))
  files := rfl
  markers := by
    intro h hne
    rw [get?_markers_remove, if_neg hne]
  rest := rfl

/-- **WHO LEAVES CONCERNS NO ONE ELSE**. -/
theorem sameButFor_leave (b : Board) {g : Guid} {d : Driver} (hg : d.guid = g) :
    b.SameButFor ((b.remove g).fileAll d.leftBehind) g := by
  refine (b.sameButFor_remove g).fileAll ?_
  intro r hr
  rw [Driver.guid_of_mem_leftBehind hr, hg]

/-- After a stint the files show the record in every car that it has a sheet for, and as it is where
the active car has none. What was on file of other cars stays. -/
theorem get?_files_leave_of_stint (b : Board) {g : Guid} {d : Driver} (hg : d.guid = g)
    (hstint : d.hasStint = true) (m : String) :
    ((b.remove g).fileAll d.leftBehind).disconnected.get? ⟨g, m⟩ =
      if m ∈ d.sheets.keys then d.variant? m
      else if m = d.model then some d
      else b.disconnected.get? ⟨g, m⟩ := by
  have hfiled : (b.remove g).fileAll d.leftBehind = (b.remove g).file d := by
    rw [Driver.leftBehind, if_pos hstint]
    rfl
  rw [hfiled, get?_file_eq, if_pos hg.symm, Driver.inCar?, Option.or_assoc]
  by_cases hm : m ∈ d.sheets.keys
  · obtain ⟨r, hr⟩ := Option.isSome_iff_exists.1 (Driver.isSome_variant?_iff.2 hm)
    rw [if_pos hm, hr, Option.some_or]
  · rw [if_neg hm, Driver.variant?_eq_none_iff.2 hm, Option.none_or]
    split <;> rfl

/-- Otherwise they show the record in every car with laps, and what was on file of other cars
stays. -/
theorem get?_files_leave_of_no_stint {b : Board} {g : Guid} {d : Driver}
    (hd : b.connected.get? g = some d) (hg : d.guid = g) (hstint : d.hasStint = false)
    (m : String) :
    ((b.remove g).fileAll d.leftBehind).disconnected.get? ⟨g, m⟩ =
      if (d.sheets.get? m).any (fun s => 0 < s.laps) then d.variant? m
      else b.disconnected.get? ⟨g, m⟩ := by
  have hpurged : (b.remove g).fileAll d.leftBehind = b.purge g := by
    rw [Driver.leftBehind, hstint, purge_of_some hd]
    rfl
  have hlapped : m ∈ d.lappedModels ↔ (d.sheets.get? m).any (fun s => 0 < s.laps) = true := by
    simp only [Driver.mem_lappedModels, Option.any_eq_true, decide_eq_true_eq]
  rw [hpurged, get?_files_purge hd hg]
  simp only [hlapped]

end Board

namespace Engine

/-- Both ways to leave are one: the driver is taken off, and records are filed. -/
theorem disconnect_eq {e : Engine} {g : Guid} {d : Driver}
    (hd : e.board.connected.get? g = some d) :
    e.disconnect g = (e.setBoard ((e.board.remove g).fileAll d.leftBehind),
      .changed [if d.hasStint then .driverDisconnected g else .driverPurged g]) := by
  have hearly : (!d.isLoaded || d.totalLaps == 0) = !d.hasStint := by
    rw [Driver.hasStint, Bool.not_and, bne, Bool.not_not]
  rw [disconnect, hd]
  simp only [hearly, Driver.leftBehind]
  cases d.hasStint with
  | true => rfl
  | false =>
      rw [Board.purge_of_some hd]
      rfl

/-- **LEAVING DOES WHAT IT SHOULD, AND NO MORE**. In every state that can be reached, a connected
driver who leaves is not connected any more and has neither a place nor a marker. All others keep
their records, files and markers, in their order, and their places; files of the driver are
overwritten in place or come last. Who had not loaded or had no laps is said to be purged, and what
is filed is the record in every car in which it has laps. Anyone else is said to be disconnected,
and what is filed is the record in every car that it has a sheet for, and the record as it is for
the active car if there is no sheet for that. All other files of the driver stay what they were. -/
theorem leaves_exactly {e : Engine} (he : e.Reachable) {car : CarInfo} {d : Driver}
    (hd : e.board.connected.get? car.guid = some d) (now : Instant) :
    let b := e.board
    let after := e.apply (.connectionClosed car) now
    let c := after.1.board
    let g := car.guid
    (c.connected.get? g = none ∧ c.cars.car? g = none ∧ c.markers.get? g = none) ∧
    (∀ a h, c.cars.guid? a = some h ↔ h ≠ g ∧ b.cars.guid? a = some h) ∧
    b.SameButFor c g ∧ b.disconnected.keys <+: c.disconnected.keys ∧
    after.1 = { e with board := c, lastAppliedAt := some now } ∧
    if d.isLoaded = false ∨ d.totalLaps = 0 then
      after.2 = .changed [.driverPurged g] ∧
      ∀ m, c.disconnected.get? ⟨g, m⟩ =
        if (d.sheets.get? m).any (fun s => 0 < s.laps) then d.variant? m
        else b.disconnected.get? ⟨g, m⟩
    else
      after.2 = .changed [.driverDisconnected g] ∧
      ∀ m, c.disconnected.get? ⟨g, m⟩ =
        if m ∈ d.sheets.keys then d.variant? m
        else if m = d.model then some d
        else b.disconnected.get? ⟨g, m⟩ := by
  intro b after c g
  have hown : d.guid = g := he.filed.own g d hd
  have hafter : after =
      ({ e with board := (b.remove g).fileAll d.leftBehind, lastAppliedAt := some now },
        .changed [if d.hasStint then .driverDisconnected g else .driverPurged g]) :=
    disconnect_eq (e := { e with lastAppliedAt := some now }) hd
  have hc : c = (b.remove g).fileAll d.leftBehind := congrArg (fun p => p.1.board) hafter
  have hplaces : ∀ a h, c.cars.guid? a = some h ↔ h ≠ g ∧ b.cars.guid? a = some h := by
    intro a h
    rw [hc]
    exact Occupancy.guid?_remove_iff b.cars g a h
  refine ⟨⟨?_, ?_, ?_⟩, hplaces, ?_, ?_, ?_, ?_⟩
  · rw [hc]
    show (b.connected.erase g).get? g = none
    rw [Keyed.get?_erase, if_pos rfl]
  · cases hplace : c.cars.car? g with
    | none => rfl
    | some a => exact absurd rfl ((hplaces a g).1 (Occupancy.car?_eq_some_iff.1 hplace)).1
  · rw [hc]
    show (b.remove g).markers.get? g = none
    rw [Board.get?_markers_remove, if_pos rfl]
  · rw [hc]
    exact b.sameButFor_leave hown
  · rw [hc]
    exact (b.remove g).keys_prefix_fileAll d.leftBehind
  · rw [hc, hafter]
  · split
    · next hearly =>
      have hstint : d.hasStint = false := Driver.hasStint_eq_false_iff.2 hearly
      refine ⟨by rw [hafter, hstint]; rfl, fun m => ?_⟩
      rw [hc]
      exact Board.get?_files_leave_of_no_stint hd hown hstint m
    · next hlate =>
      have hstint : d.hasStint = true := by
        rw [← Bool.not_eq_false, Driver.hasStint_eq_false_iff]
        exact hlate
      refine ⟨by rw [hafter, hstint]; rfl, fun m => ?_⟩
      rw [hc]
      exact b.get?_files_leave_of_stint hown hstint m

/-- A driver who has changed cars after a lap leaves, and the car without a lap is filed as well.
Then another one leaves who has a lap but has not loaded: the car with the lap is filed. -/
theorem leaves_exactly_with_and_without_stint :
    let noon : Instant := ⟨63000000000, 0, by decide, by decide, by decide, by decide⟩
    let ann : CarInfo := { carId := 1, guid := ⟨"a"⟩, model := "m3" }
    let bob : CarInfo := { carId := 2, guid := ⟨"b"⟩, model := "m3" }
    let e := initial.run
      [.event (.newConnection ann) noon, .event (.newConnection bob) noon,
       .event (.clientLoaded 1) noon,
       .event (.lapCompleted { carId := 1, millis := 80000 }) noon,
       .event (.lapCompleted { carId := 2, millis := 90000 }) noon,
       .event (.newConnection { ann with model := "z4" }) noon]
    let one := e.apply (.connectionClosed ann) noon
    let two := one.1.apply (.connectionClosed bob) noon
    (∃ d, e.board.connected.get? ⟨"a"⟩ = some d ∧ one.2 = .changed [.driverDisconnected ⟨"a"⟩] ∧
      one.1.board.disconnected.get? ⟨⟨"a"⟩, "z4"⟩ = d.variant? "z4" ∧
      one.1.board.connected.get? ⟨"b"⟩ = e.board.connected.get? ⟨"b"⟩) ∧
    ∃ d, one.1.board.connected.get? ⟨"b"⟩ = some d ∧ two.2 = .changed [.driverPurged ⟨"b"⟩] ∧
      two.1.board.disconnected.get? ⟨⟨"b"⟩, "m3"⟩ = d.variant? "m3" ∧
      two.1.board.cars.car? ⟨"b"⟩ = none := by
  intro noon ann bob e one two
  have he : e.Reachable := ⟨_, rfl⟩
  have hstep : ∀ {e : Engine} (ev : Event), e.Reachable → (e.apply ev noon).1.Reachable :=
    fun ev he => he.react (.event ev noon)
  have hone : one.1.Reachable := hstep (.connectionClosed ann) he
  obtain ⟨a, ha, haloaded, halaps, hasheet⟩ : ∃ d ∈ e.board.connected.get? ann.guid,
      d.isLoaded = true ∧ d.totalLaps = 1 ∧ "z4" ∈ d.sheets.keys := by decide +kernel
  obtain ⟨b, hb, hbloaded, hblaps⟩ : ∃ d ∈ one.1.board.connected.get? bob.guid,
      d.isLoaded = false ∧ (d.sheets.get? "m3").any (fun s => 0 < s.laps) = true := by
    decide +kernel
  have hastint : ¬ (a.isLoaded = false ∨ a.totalLaps = 0) := by
    rw [haloaded, halaps]
    decide
  -- from here on nothing is worked out of the run
  clear_value e
  obtain ⟨-, -, hothers, -, -, hfirst⟩ := leaves_exactly he ha noon
  rw [if_neg hastint] at hfirst
  have hsame : one.1.board.connected.get? ⟨"b"⟩ = e.board.connected.get? ⟨"b"⟩ :=
    hothers.get?_connected (by decide)
  have hcar : one.1.board.disconnected.get? ⟨⟨"a"⟩, "z4"⟩ = a.variant? "z4" :=
    (hfirst.2 "z4").trans (if_pos hasheet)
  obtain ⟨⟨-, hplace, -⟩, -, -, -, -, hsecond⟩ := leaves_exactly hone hb noon
  rw [if_pos (.inl hbloaded)] at hsecond
  exact ⟨⟨a, ha, hfirst.1, hcar, hsame⟩,
    b, hb, hsecond.1, (hsecond.2 "m3").trans (if_pos hblaps), hplace⟩

end Engine

end Pitwall
