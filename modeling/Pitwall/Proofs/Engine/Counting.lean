import Pitwall.Engine.Counting
import Pitwall.Proofs.Engine.Numbering

/-!
# Counting — when words keep the numbers

An engine keeps counts and times in words. What is left there of a number is the number itself
exactly if it fits (**`Figure.held_eq_value_iff`**), so where checked arithmetic stops is where
unchecked arithmetic goes on with something else (**`Engine.overflows_iff_words_ne`**). It takes a
count or a time that is kept already and has come to the end of its word:
**`Engine.overflows_eq_false_iff`**. The gears and the times that an event brings fit always.
-/

namespace Pitwall

/-! ## Figures -/

namespace Figure

/-- The number itself. -/
def value : Figure → Int
  | .count n => n
  | .nanos n => n
  | .gear n => n

/-- What a word holds of the number. -/
def held : Figure → Int
  | .count n => n % UInt32.size
  | .nanos n => n.bmod Int64.size
  | .gear n => n.bmod Int32.size

/-- A word holds the number itself exactly if it fits. -/
theorem held_eq_value_iff (f : Figure) : f.held = f.value ↔ f.fits = true := by
  cases f with
  | count n =>
      simp only [held, value, fits, decide_eq_true_eq, UInt32.size]
      omega
  | nanos n =>
      simp only [held, value, fits, decide_eq_true_eq, Int.bmod_def, Int64.size,
        Int64.toInt_minValue, Int64.toInt_maxValue]
      omega
  | gear n =>
      simp only [held, value, fits, decide_eq_true_eq, Int.bmod_def, Int32.size,
        Int32.toInt_minValue, Int32.toInt_maxValue]
      omega

/-- A time in milliseconds always fits. -/
theorem fits_ofMillis (millis : UInt32) : (ofMillis millis).fits = true := by
  have hless := millis.toNat_lt
  simp only [ofMillis, fits, decide_eq_true_eq, Int64.toInt_minValue, Int64.toInt_maxValue]
  omega

/-- So does a gear as displayed. -/
theorem fits_gear (n : UInt8) : (gear (n.toNat - 1)).fits = true := by
  have hless := n.toNat_lt
  simp only [fits, decide_eq_true_eq, Int32.toInt_minValue, Int32.toInt_maxValue]
  omega

/-- What is left of the next count is the next word. -/
theorem held_count_succ (n : UInt32) : (count (n.toNat + 1)).held = (n + 1).toNat := by
  rw [UInt32.toNat_add]
  rfl

end Figure

/-! ## Room for one more -/

namespace Driver

/-- There is room for one more lap: in the driver's laps, and in the laps and the time driven in the
car. -/
structure HasRoomForLap (d : Driver) (l : LapReport) : Prop where
  laps : d.totalLaps.toNat + 1 < UInt32.size
  sheetLaps : d.sheet.laps.toNat + 1 < UInt32.size
  time : d.sheet.totalTime.toInt + l.millis.toNat * 1000000 ≤ Int64.maxValue.toInt

theorem fits_lapFigures_iff (d : Driver) (l : LapReport) :
    (∀ f ∈ d.lapFigures l, f.fits = true) ↔ d.HasRoomForLap l := by
  have hlow := d.sheet.totalTime.minValue_le_toInt
  simp only [lapFigures, List.forall_mem_cons, List.not_mem_nil, false_implies, implies_true,
    and_true, Figure.fits_ofMillis, true_and]
  simp only [Figure.fits, decide_eq_true_eq]
  constructor
  · rintro ⟨hlaps, hsheet, htime⟩
    exact ⟨by omega, by omega, by omega⟩
  · rintro ⟨hlaps, hsheet, htime⟩
    exact ⟨by omega, by omega, by omega⟩

/-- The greatest number kept bounds the others. -/
theorem fits_collisionFigure_iff (d : Driver) :
    d.collisionFigure.fits = true ↔ d.HasNumberLeft := by
  rw [collisionFigure]
  cases hmax : (d.collisions.map Collision.id).max? with
  | none =>
      have hnone : d.collisions = [] := List.map_eq_nil_iff.1 (List.max?_eq_none_iff.1 hmax)
      refine iff_of_true rfl ?_
      intro c hc
      rw [hnone] at hc
      cases hc
  | some top =>
      obtain ⟨htop, hle⟩ := List.max?_eq_some_iff.1 hmax
      obtain ⟨k, hk, rfl⟩ := List.mem_map.1 htop
      simp only [Figure.fits, decide_eq_true_eq]
      constructor
      · intro hfits c hc
        have hck := UInt32.le_iff_toNat_le.1 (hle c.id (List.mem_map_of_mem hc))
        show c.id.toNat + 1 < UInt32.size
        omega
      · intro hroom
        have hlast := hroom k hk
        omega

end Driver

namespace Board

/-- There is room for the numbers that an event works out. -/
def HasRoomToCount (b : Board) : Event → Prop
  | .lapCompleted l => ∀ p ∈ b.atCar? l.carId, p.2.HasRoomForLap l
  | .collision c => ∀ p ∈ b.atCar? c.carId, p.2.HasNumberLeft
  | _ => True

end Board

/-! ## Words -/

namespace LapSheet

variable (s : LapSheet) (time : Int64) (cuts : UInt8) (tyres : String) (now : Instant)

@[simp] theorem laps_completeLap : (s.completeLap time cuts tyres now).laps = s.laps + 1 := by
  rw [completeLap]
  dsimp only
  split <;> rfl

@[simp] theorem lastLap_completeLap : (s.completeLap time cuts tyres now).lastLap = time := by
  rw [completeLap]
  dsimp only
  split <;> rfl

@[simp] theorem totalTime_completeLap :
    (s.completeLap time cuts tyres now).totalTime = s.totalTime + time := by
  rw [completeLap]
  dsimp only
  split <;> rfl

end LapSheet

namespace Driver

/-- A time in milliseconds is kept to the nanosecond. -/
theorem toInt_nanosOfMillis (millis : UInt32) :
    (nanosOfMillis millis).toInt = millis.toNat * 1000000 := by
  have hless := millis.toNat_lt
  exact Int64.toInt_ofInt_of_le (by omega) (by omega)

theorem held_ofMillis (millis : UInt32) :
    (Figure.ofMillis millis).held = (nanosOfMillis millis).toInt := by
  rw [(Figure.held_eq_value_iff _).2 (Figure.fits_ofMillis millis), toInt_nanosOfMillis]
  rfl

theorem sheet_setSheet (d : Driver) (s : LapSheet) : (d.setSheet s).sheet = s := by
  refine sheet_eq_of_sheet? ?_
  show (d.sheets.insert d.model s).get? d.model = some s
  rw [Table.get?_insert, if_pos rfl]

/-- The active sheet after a lap is that of before with the lap. -/
theorem sheet_completeLap (d : Driver) (l : LapReport) (now : Instant) :
    (d.completeLap l now).sheet = d.sheet.completeLap (nanosOfMillis l.millis) l.cuts
      (if l.tyres.isEmpty then d.car.tyres else l.tyres) now :=
  sheet_setSheet _ _

/-- The words that a lap leaves. -/
def lapWords (d : Driver) (l : LapReport) (now : Instant) : List Int :=
  let after := d.completeLap l now
  [after.sheet.lastLap.toInt, after.totalLaps.toNat, after.sheet.laps.toNat,
   after.sheet.totalTime.toInt]

theorem lapWords_eq (d : Driver) (l : LapReport) (now : Instant) :
    d.lapWords l now = (d.lapFigures l).map Figure.held := by
  have hsheet := d.sheet_completeLap l now
  have hlast : (d.completeLap l now).sheet.lastLap.toInt = (Figure.ofMillis l.millis).held := by
    rw [hsheet, LapSheet.lastLap_completeLap, held_ofMillis]
  have htotal : ((d.completeLap l now).totalLaps.toNat : Int) =
      (Figure.count (d.totalLaps.toNat + 1)).held := (Figure.held_count_succ d.totalLaps).symm
  have hlaps : ((d.completeLap l now).sheet.laps.toNat : Int) =
      (Figure.count (d.sheet.laps.toNat + 1)).held := by
    rw [hsheet, LapSheet.laps_completeLap, Figure.held_count_succ]
  have htime : (d.completeLap l now).sheet.totalTime.toInt =
      (Figure.nanos (d.sheet.totalTime.toInt + l.millis.toNat * 1000000)).held := by
    rw [hsheet, LapSheet.totalTime_completeLap, Int64.toInt_add, toInt_nanosOfMillis]
    rfl
  simp only [lapWords, lapFigures, List.map_cons, List.map_nil, hlast, htotal, hlaps, htime]

theorem toNat_nextCollisionId (d : Driver) :
    (d.nextCollisionId.toNat : Int) = d.collisionFigure.held := by
  rw [nextCollisionId, collisionFigure]
  cases (d.collisions.map Collision.id).max? with
  | none => rfl
  | some id => exact (Figure.held_count_succ id).symm

end Driver

namespace Engine

/-- The gear is shown as it is. -/
theorem toInt_gear_driveMarker (t : Telemetry) (m : Marker) :
    (driveMarker t m).gear.toInt = (Figure.gear (t.gear.toNat - 1)).held := by
  have hless := t.gear.toNat_lt
  show (Int32.ofNat t.gear.toNat - 1).toInt = _
  rw [Int32.toInt_sub, Int32.toInt_ofNat_of_lt (by omega)]
  rfl

/-- The words in which merging an event keeps the numbers that it works out. -/
def words (e : Engine) (now : Instant) : Event → List Int
  | .carUpdate t => (e.board.atCar? t.carId).elim [] fun p =>
    [(driveMarker t ((e.board.markers.get? p.2.guid).getD (.ofCar p.2.car))).gear.toInt]
  | .collision c => (e.board.atCar? c.carId).elim [] fun p => [p.2.nextCollisionId.toNat]
  | .lapCompleted l => (e.board.atCar? l.carId).elim [] fun p => p.2.lapWords l now
  | .splitCompleted s => [(Driver.nanosOfMillis s.millis).toInt]
  | _ => []

/-- The words of a lap are on the record afterwards, but for the laps of the driver where the
leaderboard that comes with the lap has raised them. -/
theorem exists_record_of_lap {e : Engine} {l : LapReport} {g : Guid} {d : Driver}
    (hd : e.board.atCar? l.carId = some (g, d)) (now : Instant) :
    ∃ r laps, (e.apply (.lapCompleted l) now).1.board.connected.get? g = some r ∧
      e.words now (.lapCompleted l) =
        [r.sheet.lastLap.toInt, laps, r.sheet.laps.toNat, r.sheet.totalTime.toInt] ∧
      (laps = r.totalLaps.toNat ∨ r.totalLaps.toNat < UInt16.size) := by
  let b := e.board.setDriver g (d.completeLap l now)
  have hboard : (e.apply (.lapCompleted l) now).1.board = l.leaderboard.foldl Board.raiseLaps b :=
    congrArg (·.1.board) (withCar_of_atCar? (e := { e with lastAppliedAt := some now }) hd _)
  have hset : b.connected.get? g = some (d.completeLap l now) := by
    rw [Board.get?_setDriver, if_pos rfl, (Board.atCar?_eq_some_iff.1 hd).2]
    rfl
  have hwords : e.words now (.lapCompleted l) = d.lapWords l now := by
    rw [words, hd]
    rfl
  obtain ⟨f, hf, hget⟩ := b.get?_foldl_raiseLaps l.leaderboard g
  rw [hset] at hget
  rw [hboard]
  refine ⟨_, _, hget, hwords, (hf _).imp_left fun hsame => ?_⟩
  exact congrArg (fun n : UInt32 => (n.toNat : Int)) hsame.symm

/-- **WORDS HOLD WHAT THEY CAN** of the numbers. -/
theorem words_eq (e : Engine) (now : Instant) (ev : Event) :
    e.words now ev = (e.figures ev).map Figure.held := by
  cases ev with
  | carUpdate t =>
      rw [words, figures]
      cases e.board.atCar? t.carId with
      | none => rfl
      | some p => exact congrArg (fun n => [n]) (toInt_gear_driveMarker t _)
  | collision c =>
      rw [words, figures]
      cases e.board.atCar? c.carId with
      | none => rfl
      | some p => exact congrArg (fun n => [n]) p.2.toNat_nextCollisionId
  | lapCompleted l =>
      rw [words, figures]
      cases e.board.atCar? l.carId with
      | none => rfl
      | some p => exact p.2.lapWords_eq l now
  | splitCompleted s => exact congrArg (fun n => [n]) (Driver.held_ofMillis s.millis).symm
  | _ => rfl

theorem overflows_eq_false {e : Engine} {ev : Event} :
    e.overflows ev = false ↔ ∀ f ∈ e.figures ev, f.fits = true := by
  simp only [overflows, List.any_eq_false, Bool.not_eq_true, Bool.not_eq_false']

/-- **CHECKED ARITHMETIC STOPS WHERE UNCHECKED ARITHMETIC GOES WRONG.** -/
theorem overflows_iff_words_ne (e : Engine) (now : Instant) (ev : Event) :
    e.overflows ev = true ↔ e.words now ev ≠ (e.figures ev).map Figure.value := by
  rw [words_eq, ← Bool.not_eq_false, ne_eq, not_iff_not, overflows_eq_false, List.map_inj_left]
  exact forall₂_congr fun f _ => (f.held_eq_value_iff).symm

/-- **THERE IS NO OVERFLOW EXACTLY IF THERE IS ROOM.** -/
theorem overflows_eq_false_iff (e : Engine) (ev : Event) :
    e.overflows ev = false ↔ e.board.HasRoomToCount ev := by
  rw [overflows_eq_false]
  cases ev with
  | lapCompleted l =>
      rw [figures, Board.HasRoomToCount]
      cases e.board.atCar? l.carId with
      | none => simp
      | some p => simpa using p.2.fits_lapFigures_iff l
  | collision c =>
      rw [figures, Board.HasRoomToCount]
      cases e.board.atCar? c.carId with
      | none => simp
      | some p => simpa using p.2.fits_collisionFigure_iff
  | carUpdate t =>
      refine iff_of_true ?_ trivial
      rw [figures]
      cases e.board.atCar? t.carId with
      | none => simp
      | some p =>
          intro f hf
          obtain rfl := List.mem_singleton.1 hf
          exact Figure.fits_gear t.gear
  | splitCompleted s =>
      refine iff_of_true ?_ trivial
      intro f hf
      obtain rfl := List.mem_singleton.1 hf
      exact Figure.fits_ofMillis s.millis
  | _ => exact iff_of_true (fun f hf => nomatch hf) trivial

end Engine

end Pitwall
