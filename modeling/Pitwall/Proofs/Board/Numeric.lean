import Pitwall.Proofs.Board.Records
import Pitwall.Proofs.Event.Numeric

/-!
# Numeric boards — what is put on a board without NaN

A board is numeric if its map, its records and its markers are (**`Board.numeric_iff`**). Records
are made by connecting and go on with what events tell; markers show the telemetry of events, or
that of earlier markers where a snapshot takes them over (**`Board.numericMarkers_resync`**). None
of it makes NaN out of numbers: speeds are roots of sums of squares
(**`Telemetry.isNumber_speed`**), and the rest is copied or compared.
-/

namespace Pitwall

theorem Telemetry.isNumber_speed {t : Telemetry} (h : t.velocity.Numeric) : t.speed.IsNumber := by
  have hx := Binary.hasSign_mul_self (f := .double) (by decide)
    (Binary.isNumber_convert (by decide) h.1)
  have hz := Binary.hasSign_mul_self (f := .double) (by decide)
    (Binary.isNumber_convert (by decide) h.2.2)
  have hroot := ((hx.add (by decide) hz).sqrt (by decide)).isNumber
  have hfactor : (Binary.ofFraction 36 10 : Binary64).isFinite = true ∧
      (Binary.ofFraction 36 10 : Binary64).magnitude ≠ 0 := by decide +kernel
  exact Binary.isNumber_floor (by decide)
    (Binary.isNumber_mul (by decide) hroot hfactor.1 hfactor.2)

/-! ## Records -/

namespace LapSheet

theorem numeric_ofCar (car : CarInfo) : (ofCar car).Numeric := numeric_default

/-- The top speed of a lap may become that of the best lap, and the next lap starts from zero. -/
theorem Numeric.completeLap {s : LapSheet} (h : s.Numeric) (time : Int64) (cuts : UInt8)
    (tyres : String) (now : Instant) : (s.completeLap time cuts tyres now).Numeric := by
  have hzero : (Binary.zero false : Binary64).IsNumber :=
    (Binary.hasSign_zero (by decide) false).isNumber
  rw [LapSheet.completeLap]
  dsimp only
  split
  · exact ⟨hzero, h.1⟩
  · exact ⟨hzero, h.2⟩

end LapSheet

namespace Driver

/-- No float tells the car. -/
theorem anyCar_numeric : AnyCar Numeric :=
  fun _ _ h => ⟨h.spline, h.lastPosition, h.collisions, h.sheets⟩

variable {d : Driver}

theorem Numeric.insertSheet (h : d.Numeric) (model : String) {s : LapSheet} (hs : s.Numeric) :
    Numeric { d with sheets := d.sheets.insert model s } :=
  ⟨h.spline, h.lastPosition, h.collisions, Table.forall_values_insert h.sheets model hs⟩

/-- The active sheet is numeric, also where there is none yet. -/
theorem Numeric.sheet (h : d.Numeric) : d.sheet.Numeric := by
  cases hs : d.sheet? with
  | none =>
      rw [Driver.sheet, hs]
      exact LapSheet.numeric_ofCar d.car
  | some s =>
      rw [sheet_eq_of_sheet? hs]
      exact h.sheets s (Table.mem_values_iff.2 ⟨d.model, hs⟩)

theorem Numeric.addSheet (h : d.Numeric) (car : CarInfo) : (d.addSheet car).Numeric := by
  rw [Driver.addSheet]
  split
  · exact h
  · exact h.insertSheet car.model (LapSheet.numeric_ofCar car)

theorem numeric_ofCar (car : CarInfo) (now : Instant) : (ofCar car now).Numeric := by
  have hnone : Numeric { car, connectedAt := now, lastSeen := now } :=
    ⟨numeric_default.spline, numeric_default.lastPosition, List.forall_mem_nil _,
      List.forall_mem_nil _⟩
  exact hnone.insertSheet car.model (LapSheet.numeric_ofCar car)

theorem Numeric.completeLap (h : d.Numeric) (l : LapReport) (now : Instant) :
    (d.completeLap l now).Numeric := by
  have hlap : ∀ car, Numeric { d with totalLaps := d.totalLaps + 1, car } := fun _ =>
    ⟨h.spline, h.lastPosition, h.collisions, h.sheets⟩
  exact (hlap _).insertSheet _ (h.sheet.completeLap _ _ _ _)

/-- Of the old collisions some are kept. -/
theorem Numeric.collide (h : d.Numeric) {c : Collision} (hc : c.Numeric) :
    (d.collide c).Numeric where
  spline := h.spline
  lastPosition := h.lastPosition
  collisions := by
    intro k hk
    rcases List.mem_append.1 (List.mem_of_mem_drop hk) with hold | hnew
    · exact h.collisions k hold
    · rw [List.mem_singleton.1 hnew]
      exact hc
  sheets := h.sheets

theorem Numeric.drive (h : d.Numeric) {t : Telemetry} (ht : t.Numeric) (now : Instant) :
    (d.drive t now).Numeric := by
  have hspeed := Binary.isNumber_max h.sheet.1 (Telemetry.isNumber_speed ht.velocity)
  have hset := h.insertSheet d.model
    (s := { d.sheet with topSpeed := d.sheet.topSpeed.max t.speed }) ⟨hspeed, h.sheet.2⟩
  exact ⟨ht.spline, ht.position, hset.collisions, hset.sheets⟩

end Driver

/-! ## Markers -/

theorem Marker.numeric_ofCar (car : CarInfo) : (Marker.ofCar car).Numeric :=
  ⟨Coords.numeric_default, Binary.isNumber_default (by decide)⟩

namespace Board

/-- The markers are numeric. -/
def NumericMarkers (b : Board) : Prop := ∀ g m, b.markers.get? g = some m → m.Numeric

theorem NumericMarkers.insert {b : Board} (h : b.NumericMarkers) (g : Guid) {m : Marker}
    (hm : m.Numeric) : NumericMarkers { b with markers := b.markers.insert g m } := by
  intro a n hn
  rw [Table.get?_insert] at hn
  split at hn
  · rw [← Option.some.inj hn]
    exact hm
  · exact h a n hn

theorem NumericMarkers.remove {b : Board} (h : b.NumericMarkers) (g : Guid) :
    (b.remove g).NumericMarkers := by
  intro a m hm
  rw [get?_markers_remove] at hm
  split at hm
  · cases hm
  · exact h a m hm

/-- A driver without a marker has a numeric one to start from. -/
theorem NumericMarkers.getD {b : Board} (h : b.NumericMarkers) (g : Guid) (car : CarInfo) :
    ((b.markers.get? g).getD (.ofCar car)).Numeric := by
  cases hm : b.markers.get? g with
  | none => exact Marker.numeric_ofCar car
  | some m => exact h g m hm

/-- The records of a numeric snapshot are numeric on its board. -/
theorem records_numeric_ofSnapshot {s : Snapshot} (hs : s.Numeric) :
    (ofSnapshot s).Records Driver.Numeric :=
  records_ofSnapshot Driver.anyCar_numeric ⟨hs.connected, hs.disconnected⟩

/-- Markers of a numeric snapshot are numeric, also with the telemetry of numeric markers. -/
theorem numericMarkers_resync {s : Snapshot} (hs : s.Numeric) {b : Board} (h : b.NumericMarkers) :
    ((ofSnapshot s).takeOverMarkers b.markers).NumericMarkers := by
  have hnew : (ofSnapshot s).NumericMarkers := by
    intro g m hm
    rw [get?_markers_ofSnapshot, Option.map_eq_some_iff] at hm
    obtain ⟨d, hd, rfl⟩ := hm
    have hconn := (Option.filter_eq_some_iff.1 hd).1
    exact ⟨((records_numeric_ofSnapshot hs).connected g d hconn).lastPosition,
      (Marker.numeric_ofCar d.car).2⟩
  intro g m hm
  rw [get?_takeOverMarkers] at hm
  split at hm
  · rw [Option.or_eq_some_iff] at hm
    rcases hm with hm | ⟨-, hm⟩
    · obtain ⟨x, hx, rfl⟩ := Option.map_eq_some_iff.1 hm
      have hnum := h g x hx
      rw [takenOver]
      cases hy : (ofSnapshot s).markers.get? g with
      | none => exact hnum
      | some y => exact ⟨(hnew g y hy).1, hnum.2⟩
    · exact hnew g m hm
  · exact hnew g m hm

/-- **A BOARD IS NUMERIC** if its map, its records and its markers are. -/
theorem numeric_iff {b : Board} :
    b.Numeric ↔ b.map.Numeric ∧ b.Records Driver.Numeric ∧ b.NumericMarkers := by
  constructor
  · intro h
    refine ⟨h.map, ⟨fun g d hd => ?_, fun k d hd => ?_⟩, fun g m hm => ?_⟩
    · exact h.connected d (Keyed.mem_values_iff.2 ⟨g, hd⟩)
    · exact h.disconnected d (Keyed.mem_values_iff.2 ⟨k, hd⟩)
    · exact h.markers m (Table.mem_values_iff.2 ⟨g, hm⟩)
  · rintro ⟨hmap, hrecords, hmarkers⟩
    refine ⟨hmap, fun d hd => ?_, fun d hd => ?_, fun m hm => ?_⟩
    · obtain ⟨g, hg⟩ := Keyed.mem_values_iff.1 hd
      exact hrecords.connected g d hg
    · obtain ⟨k, hk⟩ := Keyed.mem_values_iff.1 hd
      exact hrecords.disconnected k d hk
    · obtain ⟨g, hg⟩ := Table.mem_values_iff.1 hm
      exact hmarkers g m hg

end Board

end Pitwall
