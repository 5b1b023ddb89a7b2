import Pitwall.Proofs.Engine.Steps
import Pitwall.Proofs.Engine.Ticks
import Pitwall.Proofs.Engine.Unchanged

/-!
# Onward — what becomes of a driver's record on the track

As long as nobody comes or goes, an input does one of two things to the record of a connected
driver: it is about that driver, and then the record is set (**`Board.recordWith`**), or it is about
somebody else, and then at most a leaderboard raises the laps. **`Engine.exists_record_react`** says
so of every such input at once, and **`Engine.gather`** lists what the inputs of a run bring.
-/

namespace Pitwall

/-- With this input nobody comes or goes: an event that rearranges no records, or a periodic job. -/
def Input.onTrack : Input → Bool
  | .event ev _ => !ev.rearranges
  | .tick _ _ => true
  | .reset => false

namespace LapSheet

variable (s : LapSheet) (time : Int64) (cuts : UInt8) (tyres : String) (now : Instant)

/-- A lap beats the best one, whatever else stands on the sheet. -/
theorem improvedBy_congr {s t : LapSheet} (h : t.bestLap = s.bestLap) (time : Int64)
    (cuts : UInt8) : t.improvedBy time cuts = s.improvedBy time cuts := by
  rw [improvedBy, improvedBy, hasValidLap, hasValidLap, h]

/-- The best lap gives way to a better one, and its splits give way to those of the lap. -/
theorem best_completeLap :
    (s.completeLap time cuts tyres now).bestLap =
        (if s.improvedBy time cuts then time else s.bestLap) ∧
      (s.completeLap time cuts tyres now).bestSplits =
        (if s.improvedBy time cuts then s.currentSplits else s.bestSplits) := by
  rw [completeLap]
  dsimp only
  rw [improvedBy_congr (s := s) (t := { s with laps := s.laps + 1, lastLap := time,
                                               totalTime := s.totalTime + time,
                                               lastLapAt := now }) rfl]
  split
  · exact ⟨rfl, rfl⟩
  · exact ⟨rfl, rfl⟩

end LapSheet

namespace Board

/-- The record that an event on the track makes of the record of the driver it is about. -/
def recordOn (b : Board) (now : Instant) (d : Driver) (ev : Event) : Driver :=
  match ev with
  | .lapCompleted l => d.completeLap l now
  | _ => b.recordAfter now d ev

/-- What an input on the track makes of the record of a connected driver, but for the laps that a
leaderboard may raise. -/
def recordWith (b : Board) (g : Guid) (d : Driver) : Input → Driver
  | .event ev now => if ev.address?.bind b.occupant? = some g then b.recordOn now d ev else d
  | _ => d

variable {b : Board} {g : Guid} {d : Driver}

/-- A leaderboard lowers no laps, and changes nothing else of a record. -/
theorem exists_laps_foldl_raiseLaps (hd : b.connected.get? g = some d)
    (lines : List LeaderboardLine) :
    ∃ n, (lines.foldl raiseLaps b).connected.get? g = some { d with totalLaps := n } ∧
      d.totalLaps ≤ n := by
  induction lines generalizing b d with
  | nil => exact ⟨d.totalLaps, hd, UInt32.le_refl _⟩
  | cons line lines ih =>
      rw [List.foldl_cons, raiseLaps]
      split
      · exact ih hd
      · next key c hat =>
        have hc : b.connected.get? key = some c := (atCar?_eq_some_iff.1 hat).2
        by_cases hg : g = key
        · subst hg
          obtain rfl : d = c := Option.some.inj (hd.symm.trans hc)
          have hset : (b.setDriver g (d.raiseLaps line.laps)).connected.get? g =
              some (d.raiseLaps line.laps) := by
            rw [get?_setDriver, if_pos rfl, hd]
            rfl
          obtain ⟨n, hn, hle⟩ := ih hset
          exact ⟨n, hn, UInt32.le_trans Std.left_le_max hle⟩
        · refine ih ?_
          rw [get?_setDriver, if_neg hg]
          exact hd

end Board

namespace Engine

variable {e : Engine} {g : Guid} {d : Driver}

/-- An event that names no place leaves the board alone, unless it rearranges records. -/
theorem board_merge_of_address?_eq_none {ev : Event} (h : ev.address? = none)
    (hev : ev.rearranges = false) (now : Instant) : (e.merge now ev).1.board = e.board := by
  cases ev with
  | snapshot s => cases hev
  | newConnection car => cases hev
  | connectionClosed car => cases hev
  | clientLoaded car => cases h
  | carUpdate t => cases h
  | collision c => cases h
  | lapCompleted l => cases h
  | splitCompleted s => cases h
  | tyresChanged car => cases h
  | chat m => rfl
  | newSession s => rfl
  | sessionInfo s => rfl
  | endSession file => rfl
  | serverError text => rfl
  | ignored tag => rfl

/-- An event about a connected driver sets the record of that driver; what a leaderboard raises
comes on top. -/
theorem exists_record_merge_of_atCar? (hd : e.board.connected.get? g = some d) {ev : Event}
    {car : CarId} (hcar : ev.address? = some car) {key : Guid} {c : Driver}
    (hat : e.board.atCar? car = some (key, c)) (now : Instant) :
    let r := if key = g then e.board.recordOn now d ev else d
    ∃ n, (e.merge now ev).1.board.connected.get? g = some { r with totalLaps := n } ∧
      r.totalLaps ≤ n := by
  intro r
  have hc : e.board.connected.get? key = some c := (Board.atCar?_eq_some_iff.1 hat).2
  -- the record that is set, wherever the rest of the event puts it
  have hset : ∀ b : Board, (∀ a, b.connected.get? a =
      if a = key then (e.board.connected.get? a).map (fun _ => e.board.recordOn now c ev)
      else e.board.connected.get? a) → b.connected.get? g = some r := by
    intro b hb
    rw [hb g]
    by_cases hg : g = key
    · subst hg
      obtain rfl : d = c := Option.some.inj (hd.symm.trans hc)
      have hr : r = e.board.recordOn now d ev := if_pos rfl
      rw [if_pos rfl, hd, hr]
      rfl
    · have hr : r = d := if_neg fun h => hg h.symm
      rw [if_neg hg, hd, hr]
  by_cases hlap : ∃ l, ev = .lapCompleted l
  · obtain ⟨l, rfl⟩ := hlap
    cases hcar
    rw [merge, completeLap, withCar_of_atCar? hat]
    exact Board.exists_laps_foldl_raiseLaps
      (hset (e.board.setDriver key (c.completeLap l now)) fun a => Board.get?_setDriver _ _ _ _)
      l.leaderboard
  · have hplace : ev.place? = some car ∧
        e.board.recordOn now c ev = e.board.recordAfter now c ev := by
      cases ev with
      | lapCompleted l => exact absurd ⟨l, rfl⟩ hlap
      | _ => exact ⟨hcar, rfl⟩
    rw [(e.merge_of_place? now hplace.1 hat).1]
    refine ⟨r.totalLaps, hset _ fun a => ?_, UInt32.le_refl _⟩
    rw [Board.get?_connected_put, hplace.2]

/-- **ONE INPUT ON THE TRACK** sets the record of a connected driver to what it makes of it, but for
laps that a leaderboard may raise. -/
theorem exists_record_react (hd : e.board.connected.get? g = some d) {i : Input}
    (hi : i.onTrack = true) :
    ∃ n, (e.react i).1.board.connected.get? g =
        some { e.board.recordWith g d i with totalLaps := n } ∧
      (e.board.recordWith g d i).totalLaps ≤ n := by
  cases i with
  | event ev now =>
      have hev : ev.rearranges = false := by simpa [Input.onTrack] using hi
      show ∃ n, (merge { e with lastAppliedAt := some now } now ev).1.board.connected.get? g = _ ∧ _
      simp only [Board.recordWith]
      cases hcar : ev.address? with
      | none =>
          have hnobody : (none : Option CarId).bind e.board.occupant? ≠ some g :=
            (Option.some_ne_none g).symm
          rw [board_merge_of_address?_eq_none hcar hev, if_neg hnobody]
          exact ⟨d.totalLaps, hd, UInt32.le_refl _⟩
      | some car =>
          cases hkey : e.board.occupant? car with
          | none =>
              have hnobody : (some car).bind e.board.occupant? ≠ some g := by
                rw [Option.bind_some, hkey]
                exact (Option.some_ne_none g).symm
              rw [merge_of_nobody (e := { e with lastAppliedAt := some now }) hcar hkey,
                if_neg hnobody]
              exact ⟨d.totalLaps, hd, UInt32.le_refl _⟩
          | some key =>
              obtain ⟨c, hat⟩ := Board.occupant?_eq_some_iff.1 hkey
              have hset := exists_record_merge_of_atCar? (e := { e with lastAppliedAt := some now })
                hd hcar hat now
              simp only [Option.bind_some, hkey, Option.some.injEq]
              exact hset
  | tick t now =>
      exact ⟨d.totalLaps, ((e.sameRecords_tick t now).connected g).trans hd, UInt32.le_refl _⟩
  | reset => cases hi

/-- Nobody comes with an input on the track. -/
theorem absent_react (hg : e.board.connected.get? g = none) {i : Input} (hi : i.onTrack = true) :
    (e.react i).1.board.connected.get? g = none := by
  cases i with
  | event ev now =>
      have hev : ev.rearranges = false := by simpa [Input.onTrack] using hi
      exact (driven_merge { e with lastAppliedAt := some now } now hev).absent g hg
  | tick t now => exact ((e.sameRecords_tick t now).connected g).trans hg
  | reset => cases hi

/-! ## What a run brings -/

/-- What the inputs of a run bring, each as the board is when it comes in. -/
def gather {α : Type} (e : Engine) (f : Board → Input → Option α) : List Input → List α
  | [] => []
  | i :: inputs => (f e.board i).toList ++ (e.react i).1.gather f inputs

end Engine

end Pitwall
