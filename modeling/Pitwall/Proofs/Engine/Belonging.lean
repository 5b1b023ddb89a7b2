import Pitwall.Proofs.Board.Places
import Pitwall.Proofs.Board.Snapshots
import Pitwall.Proofs.Engine.Steps

/-!
# Belonging — markers and places name connected drivers

Markers come in many ways: a driver connects, finishes loading, drives, or is on a snapshot, which
also takes over earlier ones. They all stand under the GUID of a connected driver and bear it
(**`Board.MarkersBelong.step`**), and whatever takes a driver off takes the marker off too. Places
are bound by drivers who connect and by snapshots, and released with the driver
(**`Board.PlacesBelong.step`**); a snapshot may also list a place for somebody who is not connected.
If none does, places name connected drivers as well: **`Engine.nothing_dangles`**.
-/

namespace Pitwall

/-! ## Markers -/

namespace Marker

/-- The marker is one of the driver under a GUID, and the highest revolutions bound the latest. -/
structure FitsUnder (m : Marker) (g : Guid) : Prop where
  guid : m.guid = g
  rpm : m.rpm ≤ m.maxRpm

theorem fitsUnder_ofCar (car : CarInfo) : (ofCar car).FitsUnder car.guid :=
  ⟨rfl, UInt16.le_refl 0⟩

/-- Telemetry brings the revolutions of the marker it is taken from. -/
theorem FitsUnder.withTelemetryOf {m earlier : Marker} {g : Guid} (h : m.guid = g)
    (he : earlier.FitsUnder g) : (m.withTelemetryOf earlier).FitsUnder g :=
  ⟨h, he.rpm⟩

/-- Whatever an event makes of a marker, it stays one of the driver. -/
theorem FitsUnder.marking {m : Marker} {g : Guid} (h : m.FitsUnder g) {ev : Event}
    {f : Marker → Marker} (hf : ev.marking? = some f) : (f m).FitsUnder g := by
  cases ev with
  | clientLoaded car =>
      cases hf
      exact ⟨h.guid, h.rpm⟩
  | carUpdate t =>
      cases hf
      refine ⟨h.guid, ?_⟩
      show t.rpm ≤ if m.maxRpm ≤ t.rpm then t.rpm else m.maxRpm
      split
      · exact UInt16.le_refl _
      · next hmax => exact UInt16.le_of_lt (UInt16.not_le.1 hmax)
  | _ => cases hf

end Marker

namespace Board

/-- Every marker belongs to a connected driver. -/
def MarkersBelong (b : Board) : Prop :=
  ∀ g m, b.markers.get? g = some m → b.connected.contains g = true ∧ m.FitsUnder g

variable {b c : Board}

/-- Connected drivers and markers are all that matters. -/
theorem MarkersBelong.congr (h : b.MarkersBelong)
    (hconn : ∀ g, c.connected.contains g = b.connected.contains g)
    (hmarkers : c.markers = b.markers) : c.MarkersBelong := by
  intro g m hm
  rw [hmarkers] at hm
  rw [hconn]
  exact h g m hm

theorem MarkersBelong.remove (h : b.MarkersBelong) (guid : Guid) :
    (b.remove guid).MarkersBelong := by
  intro g m hm
  rw [get?_markers_remove] at hm
  split at hm
  · cases hm
  · next hne =>
    obtain ⟨hconn, hfits⟩ := h g m hm
    refine ⟨?_, hfits⟩
    show (b.connected.erase guid).contains g = true
    rw [Keyed.contains_erase, hconn, decide_eq_true hne]
    rfl

theorem contains_connect (b : Board) (car : CarInfo) (now : Instant) (g : Guid) :
    (b.connect car now).connected.contains g =
      (decide (g = car.guid) || b.connected.contains g) := by
  show ((b.entering car now).sync car.guid).connected.contains g = _
  rw [connected_sync]
  exact Keyed.contains_insert _ _ _ _

/-- Whoever connects gets a new marker. -/
theorem MarkersBelong.connect (h : b.MarkersBelong) (car : CarInfo) (now : Instant) :
    (b.connect car now).MarkersBelong := by
  intro g m hm
  rw [markers_connect, Table.get?_insert] at hm
  rw [contains_connect]
  split at hm
  · next hg =>
    subst hg
    obtain rfl := Option.some.inj hm
    exact ⟨by rw [decide_eq_true rfl, Bool.true_or], Marker.fitsUnder_ofCar car⟩
  · obtain ⟨hold, hfits⟩ := h g m hm
    exact ⟨by rw [hold, Bool.or_true], hfits⟩

/-- What happens to a driver may change the marker; a driver without one gets it. -/
theorem MarkersBelong.put (h : b.MarkersBelong) {g : Guid} {r : Driver}
    (hconn : b.connected.contains g = true) (hr : r.guid = g) {f : Option (Marker → Marker)}
    (hf : ∀ k, f = some k → ∀ m : Marker, m.FitsUnder g → (k m).FitsUnder g) :
    (b.put g r f).MarkersBelong := by
  intro a m hm
  have hcontains : (b.put g r f).connected.contains a = b.connected.contains a :=
    Keyed.contains_modify _ _ _ _
  rw [hcontains]
  rw [get?_markers_put b hr] at hm
  split at hm
  · next ha =>
    subst ha
    cases f with
    | none => exact h g m hm
    | some k =>
        obtain rfl := Option.some.inj hm
        refine ⟨hconn, hf k rfl _ ?_⟩
        -- the marker that was there fits, and so does a new one
        cases hold : b.markers.get? g with
        | none => exact hr ▸ Marker.fitsUnder_ofCar r.car
        | some old => exact (h g old hold).2
  · exact h a m hm

theorem contains_foldl_raiseLaps (b : Board) (lines : List LeaderboardLine) (g : Guid) :
    (lines.foldl raiseLaps b).connected.contains g = b.connected.contains g := by
  obtain ⟨f, -, hget⟩ := b.get?_foldl_raiseLaps lines g
  rw [Keyed.contains_eq_isSome, Keyed.contains_eq_isSome, hget, Option.isSome_map]

/-- Of the earlier markers a snapshot keeps those of connected drivers, and the telemetry. -/
theorem MarkersBelong.resync (h : b.MarkersBelong) (s : Snapshot) :
    ((ofSnapshot s).takeOverMarkers b.markers).MarkersBelong := by
  intro g m hm
  rw [get?_markers_resync, Option.bind_eq_some_iff] at hm
  obtain ⟨d, hd, hm⟩ := hm
  have hown : d.guid = g := (filed_ofSnapshot s).own g d hd
  refine ⟨?_, ?_⟩
  · rw [connected_takeOverMarkers]
    exact Keyed.contains_of_get? hd
  · split at hm
    · obtain rfl := Option.some.inj hm
      have hnew : (snapshotMarker d).guid = g := hown
      cases hold : b.markers.get? g with
      | none => exact ⟨hnew, UInt16.le_refl 0⟩
      | some old => exact .withTelemetryOf hnew (h g old hold).2
    · exact (h g m hm).2

/-- **ONE STEP KEEPS THE MARKERS WITH THEIR DRIVERS.** -/
theorem MarkersBelong.step (h : b.MarkersBelong) (hown : b.GuidsOwn) {i : Input}
    (hstep : b.Step i c) : c.MarkersBelong := by
  cases hstep with
  | same => exact h
  | resync s now => exact h.resync s
  | connect car now => exact h.connect car now
  | purge now hd => exact (h.remove _).congr (fun _ => rfl) rfl
  | leave now hd => exact (h.remove _).congr (fun _ => rfl) rfl
  | put ev now hcar hd =>
      obtain ⟨-, hget⟩ := atCar?_eq_some_iff.1 hd
      exact h.put (Keyed.contains_of_get? hget) (guid_recordAfter hown hget now ev)
        fun k hk m hm => hm.marking hk
  | @lap l g d now hd =>
      obtain ⟨-, hget⟩ := atCar?_eq_some_iff.1 hd
      have hput : (b.put g (d.completeLap l now) none).MarkersBelong :=
        h.put (Keyed.contains_of_get? hget) (guid_completeLap hown hget l now)
          fun k hk => nomatch hk
      exact hput.congr (contains_foldl_raiseLaps _ _) (by rw [foldl_raiseLaps_eq])
  | rank now =>
      refine h.congr (fun g => ?_) rfl
      exact Keyed.contains_arrange _ _ g
  | reset => exact fun g m hm => nomatch hm

end Board

/-! ## Places -/

namespace Snapshot

/-- The snapshot lists places for its connected drivers only. -/
def SeatsConnected (s : Snapshot) : Prop :=
  ∀ g ∈ s.cars.values, ∃ roster ∈ s.connected, g ∈ roster.drivers.keys

instance (s : Snapshot) : Decidable s.SeatsConnected :=
  have (g : Guid) : Decidable (∃ roster ∈ s.connected, g ∈ roster.drivers.keys) :=
    Option.decidableExistsMem _
  inferInstanceAs (Decidable (∀ g ∈ s.cars.values, _))

/-- Whoever is among the connected drivers of a snapshot is connected on its board. -/
theorem contains_connected_ofSnapshot {s : Snapshot} {g : Guid} {roster : Roster}
    (hroster : s.connected = some roster) (hg : g ∈ roster.drivers.keys) :
    (Board.ofSnapshot s).connected.contains g = true := by
  obtain ⟨d, hd⟩ := Keyed.mem_keys_iff.1 hg
  have hconn : (Board.ofSnapshot s).connected.get? g = some (d.withGuid g) := by
    rw [Board.get?_connected_ofSnapshot, hroster, Option.bind_some, hd]
    rfl
  exact Keyed.contains_of_get? hconn

end Snapshot

/-- A snapshot that comes in lists places for its connected drivers only. -/
def Input.SeatsConnected : Input → Prop
  | .event (.snapshot s) _ => s.SeatsConnected
  | _ => True

namespace Board

/-- Every place that is bound is bound to a connected driver. -/
def PlacesBelong (b : Board) : Prop :=
  ∀ car g, b.cars.guid? car = some g → b.connected.contains g = true

variable {b c : Board}

theorem PlacesBelong.congr (h : b.PlacesBelong)
    (hconn : ∀ g, c.connected.contains g = b.connected.contains g) (hcars : c.cars = b.cars) :
    c.PlacesBelong := by
  intro car g hg
  rw [hcars] at hg
  rw [hconn]
  exact h car g hg

theorem PlacesBelong.remove (h : b.PlacesBelong) (guid : Guid) : (b.remove guid).PlacesBelong := by
  intro car g hg
  have hremoved : (b.cars.remove guid).1.guid? car = some g := hg
  rw [Occupancy.guid?_remove, Option.filter_eq_some_iff] at hremoved
  obtain ⟨hbound, hne⟩ := hremoved
  show (b.connected.erase guid).contains g = true
  rw [Keyed.contains_erase, h car g hbound, Bool.and_true]
  exact hne

/-- Whoever connects is bound to a place, and the others stay where they are or lose it. -/
theorem PlacesBelong.connect (h : b.PlacesBelong) (car : CarInfo) (now : Instant) :
    (b.connect car now).PlacesBelong := by
  intro place g hg
  rw [cars_connect, Occupancy.guid?_insert] at hg
  rw [contains_connect]
  split at hg
  · obtain rfl := Option.some.inj hg
    rw [decide_eq_true rfl, Bool.true_or]
  · rw [h place g (Option.filter_eq_some_iff.1 hg).1, Bool.or_true]

/-- A snapshot binds the places that it lists. -/
theorem placesBelong_resync {s : Snapshot} (hs : s.SeatsConnected) (earlier : Table Guid Marker) :
    ((ofSnapshot s).takeOverMarkers earlier).PlacesBelong := by
  intro car g hg
  have hbare : ((ofSnapshot s).takeOverMarkers earlier).bare.cars.guid? car = some g := hg
  rw [bare_takeOverMarkers] at hbare
  have hcars : (Occupancy.ofListing s.cars).guid? car = some g := by
    rw [← cars_ofSnapshot]
    exact hbare
  rw [Occupancy.guid?_ofListing_iff] at hcars
  have hlisted : (car, g) ∈ s.cars.entries :=
    (List.mem_filter.1 (List.mem_of_getLast? hcars)).1
  obtain ⟨roster, hroster, hkey⟩ := hs g (List.mem_map_of_mem hlisted)
  rw [connected_takeOverMarkers]
  exact Snapshot.contains_connected_ofSnapshot hroster hkey

/-- **ONE STEP KEEPS THE PLACES WITH CONNECTED DRIVERS**, if a snapshot that comes in does. -/
theorem PlacesBelong.step (h : b.PlacesBelong) {i : Input} (hi : i.SeatsConnected)
    (hstep : b.Step i c) : c.PlacesBelong := by
  cases hstep with
  | same => exact h
  | resync s now => exact placesBelong_resync hi b.markers
  | connect car now => exact h.connect car now
  | purge now hd => exact (h.remove _).congr (fun _ => rfl) rfl
  | leave now hd => exact (h.remove _).congr (fun _ => rfl) rfl
  | put ev now hcar hd => exact h.congr (fun g => Keyed.contains_modify _ _ _ _) rfl
  | @lap l g d now hd =>
      have hput : (b.put g (d.completeLap l now) none).PlacesBelong :=
        h.congr (fun a => Keyed.contains_modify _ _ _ _) rfl
      exact hput.congr (contains_foldl_raiseLaps _ _) (by rw [foldl_raiseLaps_eq])
  | rank now => exact h.congr (fun g => Keyed.contains_arrange _ _ g) rfl
  | reset => exact fun car g hg => nomatch hg

end Board

/-! ## Runs -/

namespace Engine

/-- **NOTHING DANGLES**: in every state that a run leads to, each marker stands under the GUID of a
connected driver, bears that GUID and shows no more revolutions than the highest it has seen. If no
snapshot of the run lists a place for somebody who is not among its connected drivers, each place
that is bound is bound to a connected driver. -/
theorem nothing_dangles (inputs : List Input) :
    let b := (initial.run inputs).board
    (∀ g m, b.markers.get? g = some m →
      b.connected.contains g = true ∧ m.guid = g ∧ m.rpm ≤ m.maxRpm) ∧
    ((∀ i ∈ inputs, i.SeatsConnected) →
      ∀ car g, b.cars.guid? car = some g → b.connected.contains g = true) := by
  intro b
  constructor
  · have h : b.MarkersBelong :=
      board_induction (p := fun _ => True) (I := Board.MarkersBelong) (fun _ _ hm => nomatch hm)
        (fun hfiled _ hstep h => h.step hfiled.own hstep) (fun _ _ => trivial)
    intro g m hm
    obtain ⟨hconn, hfits⟩ := h g m hm
    exact ⟨hconn, hfits.guid, hfits.rpm⟩
  · intro hall
    exact board_induction (I := Board.PlacesBelong) (fun _ _ hg => nomatch hg)
      (fun _ hi hstep h => h.step hi hstep) hall

/-- A snapshot has a driver who has loaded, in the place that it lists. Another driver connects, the
first one drives and changes the place. -/
theorem nothing_dangles_after_change_of_place :
    let noon : Instant := ⟨63000000000, 0, by decide, by decide, by decide, by decide⟩
    let ann : CarInfo := { carId := 1, guid := ⟨"a"⟩, model := "m3" }
    let s : Snapshot :=
      { connected := some { drivers := ⟨[(⟨"a"⟩, { car := ann, loadedAt := noon })], by decide⟩ }
        cars := ⟨[(1, ⟨"a"⟩)], by decide⟩ }
    let inputs : List Input :=
      [.event (.snapshot s) noon, .event (.newConnection { carId := 2, guid := ⟨"b"⟩ }) noon,
       .event (.carUpdate { carId := 1, rpm := 7000 }) noon,
       .event (.newConnection { ann with carId := 2 }) noon]
    let b := (initial.run inputs).board
    (∀ i ∈ inputs, i.SeatsConnected) ∧ b.markers.keys = [⟨"a"⟩, ⟨"b"⟩] ∧
      b.cars.guid? 1 = none ∧ b.cars.guid? 2 = some ⟨"a"⟩ ∧ b.connected.contains ⟨"a"⟩ = true := by
  intro noon ann s inputs b
  have hseats : ∀ i ∈ inputs, i.SeatsConnected := by
    intro i hi
    rcases List.mem_cons.1 hi with rfl | hi
    · show s.SeatsConnected
      decide +kernel
    · rcases List.mem_cons.1 hi with rfl | hi
      · trivial
      · rcases List.mem_cons.1 hi with rfl | hi
        · trivial
        · obtain rfl := List.mem_singleton.1 hi
          trivial
  have hplace : b.cars.guid? 2 = some ⟨"a"⟩ := by decide +kernel
  exact ⟨hseats, by decide +kernel, by decide +kernel, hplace,
    (nothing_dangles inputs).2 hseats 2 ⟨"a"⟩ hplace⟩

end Engine

end Pitwall
