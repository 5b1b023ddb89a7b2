import Pitwall.Proofs.Board.Records
import Pitwall.Proofs.Engine.History
import Pitwall.Proofs.Engine.Onward
import Pitwall.Proofs.Engine.Steps
import Pitwall.Proofs.Engine.Unchanged

/-!
# Splits — the splits of the lap under way, on record

The splits of a lap are gathered on the lap sheet of the car while the lap is under way. An event on
the track adds a split to the sheet that is active, or clears it with a lap, or leaves all splits
alone: **`Board.splitsIn_recordWith`**. Drivers who come and go take their splits along, in all their
cars and through the files, so whatever splits are on record have been received by the driver and in
the car: **`Engine.splitsFrom_run`**.
-/

namespace Pitwall

/-! ## Splits on a record -/

namespace Driver

variable (d : Driver) (m : String)

/-- The splits of the lap under way in a car. -/
def splitsIn : Table UInt8 Split := ((d.sheets.get? m).map LapSheet.currentSplits).getD .empty

/-- The splits are a matter of the sheets alone. -/
theorem splitsIn_congr {d r : Driver} (h : r.sheets = d.sheets) (m : String) :
    r.splitsIn m = d.splitsIn m := by
  rw [splitsIn, splitsIn, h]

theorem splitsIn_insert {r : Driver} {n : String} {s : LapSheet}
    (h : r.sheets = d.sheets.insert n s) :
    r.splitsIn m = if m = n then s.currentSplits else d.splitsIn m := by
  rw [splitsIn, h, Table.get?_insert]
  by_cases hm : m = n
  · rw [if_pos hm.symm, if_pos hm]
    rfl
  · rw [if_neg (Ne.symm hm), if_neg hm]
    rfl

/-- A new record has no splits. -/
theorem splitsIn_ofCar (car : CarInfo) (now : Instant) : (ofCar car now).splitsIn m = .empty := by
  have hsheet := splitsIn_insert {} m (r := ofCar car now) (s := .ofCar car) rfl
  rw [hsheet]
  split <;> rfl

/-- A new sheet has no splits. -/
theorem splitsIn_addSheet (car : CarInfo) : (d.addSheet car).splitsIn m = d.splitsIn m := by
  rw [splitsIn, splitsIn, get?_addSheet]
  split
  · cases d.sheets.get? m <;> rfl
  · rfl

theorem currentSplits_sheet : d.sheet.currentSplits = d.splitsIn d.model := by
  rw [sheet, sheet?, splitsIn]
  cases d.sheets.get? d.model <;> rfl

/-- Setting the active sheet to one with the same splits changes no splits. -/
theorem splitsIn_of_currentSplits_eq {r : Driver} {s : LapSheet}
    (h : r.sheets = d.sheets.insert d.model s) (hs : s.currentSplits = d.sheet.currentSplits) :
    r.splitsIn m = d.splitsIn m := by
  rw [splitsIn_insert d m h, hs, currentSplits_sheet]
  split
  · next hm => rw [hm]
  · rfl

end Driver

namespace Board

variable {b c : Board} {g : Guid} {d : Driver} {m : String}

/-- What an event on the track makes of the splits of the driver it is about: a lap clears them, and
a split is added. -/
theorem splitsIn_recordOn (b : Board) (now : Instant) (d : Driver) (m : String) (ev : Event) :
    (b.recordOn now d ev).splitsIn m =
      match ev with
      | .lapCompleted _ => if m = d.model then .empty else d.splitsIn m
      | .splitCompleted s =>
        if m = d.model then
          (d.splitsIn m).insert s.index (d.judgeSplit s (b.bestSplit? s.index))
        else d.splitsIn m
      | _ => d.splitsIn m := by
  cases ev with
  | lapCompleted l =>
      show (d.completeLap l now).splitsIn m = if m = d.model then .empty else d.splitsIn m
      exact d.splitsIn_insert m (n := d.model) (s := d.sheet.completeLap _ _ _ _) rfl
  | splitCompleted s =>
      show (d.addSplit _).splitsIn m = if m = d.model then _ else _
      rw [d.splitsIn_insert m rfl]
      split
      · next hm =>
        show d.sheet.currentSplits.insert _ _ = _
        rw [d.currentSplits_sheet, hm]
        rfl
      · rfl
  | clientLoaded car =>
      show (d.load now).splitsIn m = d.splitsIn m
      rw [Driver.load]
      split <;> rfl
  | carUpdate t => exact d.splitsIn_of_currentSplits_eq m rfl rfl
  | _ => rfl

/-! ## Inputs that are about the lap under way -/

/-- The driver in a place, if it is this one in this car. -/
def driving? (b : Board) (car : CarId) (g : Guid) (m : String) : Option Driver :=
  ((b.atCar? car).filter (fun p => p.1 = g && p.2.model = m)).map Prod.snd

/-- Whether the driver completes a lap in the car with this input. -/
def completesLap (b : Board) (g : Guid) (m : String) : Input → Bool
  | .event (.lapCompleted l) _ => (b.driving? l.carId g m).isSome
  | _ => false

/-- The split that the input brings for the driver in the car, as it is kept. -/
def splitOf? (b : Board) (g : Guid) (m : String) : Input → Option Split
  | .event (.splitCompleted s) _ =>
    (b.driving? s.carId g m).map (fun d => d.judgeSplit s (b.bestSplit? s.index))
  | _ => none

theorem driving?_eq (hd : b.connected.get? g = some d) (car : CarId) (m : String) :
    b.driving? car g m = if b.occupant? car = some g ∧ d.model = m then some d else none := by
  have hat : b.occupant? car = some g ↔ b.atCar? car = some (g, d) := by
    rw [occupant?_eq_some_iff]
    constructor
    · rintro ⟨c, hc⟩
      obtain rfl : c = d := Option.some.inj ((atCar?_eq_some_iff.1 hc).2.symm.trans hd)
      exact hc
    · exact fun h => ⟨d, h⟩
  rw [driving?]
  split
  · next h => simp [hat.1 h.1, h.2]
  · next h =>
    rw [Option.map_eq_none_iff, Option.filter_eq_none_iff]
    rintro ⟨key, c⟩ hc hp
    simp only [Bool.and_eq_true, decide_eq_true_eq] at hp
    obtain ⟨rfl, rfl⟩ := hp
    obtain rfl : c = d := Option.some.inj ((atCar?_eq_some_iff.1 hc).2.symm.trans hd)
    exact h ⟨hat.2 hc, rfl⟩

/-- **WHAT AN INPUT MAKES OF THE SPLITS** of a connected driver in a car. -/
theorem splitsIn_recordWith (hd : b.connected.get? g = some d) (m : String) (i : Input) :
    (b.recordWith g d i).splitsIn m =
      if b.completesLap g m i then .empty
      else (b.splitOf? g m i).elim (d.splitsIn m) (fun p => (d.splitsIn m).insert p.index p) := by
  cases i with
  | event ev now =>
      rw [recordWith]
      cases ev with
      | lapCompleted l =>
          rw [completesLap, driving?_eq hd]
          show (if b.occupant? l.carId = some g then _ else d).splitsIn m = _
          by_cases hg : b.occupant? l.carId = some g
          · rw [if_pos hg, splitsIn_recordOn]
            by_cases hm : d.model = m
            · simp [hg, hm]
            · simp [hm, Ne.symm hm, splitOf?]
          · simp [hg, splitOf?]
      | splitCompleted s =>
          rw [splitOf?, driving?_eq hd]
          show (if b.occupant? s.carId = some g then _ else d).splitsIn m = _
          by_cases hg : b.occupant? s.carId = some g
          · rw [if_pos hg, splitsIn_recordOn]
            by_cases hm : d.model = m
            · simp [hg, hm, completesLap, Driver.judgeSplit]
            · simp [hm, Ne.symm hm, completesLap]
          · simp [hg, completesLap]
      | _ =>
          -- neither a lap nor a split, so the splits stay whoever it is about
          split
          · exact splitsIn_recordOn b now d m _
          · rfl
  | tick t now => rfl
  | reset => rfl

end Board

/-- The driver connects with this input. -/
def Input.connects (g : Guid) : Input → Bool
  | .event (.newConnection car) _ => car.guid = g
  | _ => false

/-- The input is a snapshot. -/
def Input.isSnapshot : Input → Bool
  | .event (.snapshot _) _ => true
  | _ => false

namespace Engine

variable {e : Engine} {g : Guid} {m : String} {i : Input}

/-- Who leaves is not connected afterwards, and everybody else stays connected. -/
theorem get?_connected_disconnect (e : Engine) (guid a : Guid) :
    (e.disconnect guid).1.board.connected.get? a =
      if a = guid then none else e.board.connected.get? a := by
  cases hd : e.board.connected.get? guid with
  | none =>
      rw [disconnect_of_absent hd]
      split
      · next h => rw [h]; exact hd
      · rfl
  | some d =>
      have herase : (e.disconnect guid).1.board.connected = e.board.connected.erase guid := by
        rw [disconnect, hd]
        dsimp only
        split <;> rfl
      rw [herase, Keyed.get?_erase]

/-- Who is connected and has not just come was connected before, and the splits are what the input
makes of those of before. -/
theorem splitsIn_react (hi : i.isSnapshot = false) (hg : i.connects g = false) {r : Driver}
    (hr : (e.react i).1.board.connected.get? g = some r) :
    ∃ d, e.board.connected.get? g = some d ∧
      r.splitsIn m = (e.board.recordWith g d i).splitsIn m := by
  by_cases htrack : i.onTrack = true
  · cases hd : e.board.connected.get? g with
    | none =>
        rw [absent_react hd htrack] at hr
        cases hr
    | some d =>
        obtain ⟨n, hn, -⟩ := exists_record_react hd htrack
        obtain rfl := Option.some.inj (hn.symm.trans hr)
        exact ⟨d, rfl, rfl⟩
  · cases i with
    | event ev now =>
        cases ev with
        | snapshot s => cases hi
        | newConnection car =>
            have hne : g ≠ car.guid := fun h => by simp [Input.connects, h] at hg
            have hr' : (e.board.connect car now).connected.get? g = some r := hr
            rw [Board.get?_connected_connect, if_neg hne] at hr'
            exact ⟨r, hr', rfl⟩
        | connectionClosed car =>
            have hstill := get?_connected_disconnect { e with lastAppliedAt := some now } car.guid g
            have hleft := hstill.symm.trans hr
            split at hleft
            · cases hleft
            · exact ⟨r, hleft, rfl⟩
        | _ => exact absurd rfl htrack
    | tick t now => exact absurd rfl htrack
    | reset => cases hr

end Engine

/-! ## Where the splits come from -/

namespace Board

variable {b c : Board} {g : Guid} {d : Driver} {m : String} {ps : List Split}

/-- All splits on the records of a driver in a car are among those given, under their numbers. -/
def SplitsFrom (b : Board) (g : Guid) (m : String) (ps : List Split) : Prop :=
  ∀ r ∈ b.records g, ∀ index p, (r.splitsIn m).get? index = some p → p.index = index ∧ p ∈ ps

/-- The splits of a record are those of a record of the driver, or there are none. -/
def HasSplitsOf (b : Board) (g : Guid) (m : String) (r : Driver) : Prop :=
  (∃ q ∈ b.records g, r.splitsIn m = q.splitsIn m) ∨ r.splitsIn m = .empty

theorem SplitsFrom.of_hasSplitsOf (h : b.SplitsFrom g m ps) {r : Driver} (hr : b.HasSplitsOf g m r)
    {index : UInt8} {p : Split} (hp : (r.splitsIn m).get? index = some p) :
    p.index = index ∧ p ∈ ps := by
  rcases hr with ⟨q, hq, hsame⟩ | hempty
  · rw [hsame] at hp
    exact h q hq index p hp
  · rw [hempty, Table.get?_empty] at hp
    cases hp

theorem hasSplitsOf_of_mem {r : Driver} (h : r ∈ b.records g) : b.HasSplitsOf g m r :=
  .inl ⟨r, h, rfl⟩

/-- A driver who connects brings splits of a record of the driver, or none. -/
theorem hasSplitsOf_joining (b : Board) (car : CarInfo) (now : Instant) (m : String) :
    b.HasSplitsOf car.guid m (b.joining car now) := by
  refine joining_cases (Q := b.HasSplitsOf car.guid m) b ?new ?back ?again
  case new => exact .inr (Driver.splitsIn_ofCar m car now)
  case back =>
    intro n r hr
    exact .inl ⟨r, mem_records.2 (.inr ⟨n, hr⟩), r.splitsIn_addSheet m car⟩
  case again =>
    intro d hd
    exact .inl ⟨d, mem_records.2 (.inl hd), d.splitsIn_addSheet m car⟩

/-- Where a record takes the place of others, the records have the splits of that record, or of
those that there were. -/
theorem Replaces.hasSplitsOf {taken : List String} (h : b.Replaces c d taken)
    (hd : b.HasSplitsOf d.guid m d) {r : Driver} (hr : r ∈ c.records g) : b.HasSplitsOf g m r := by
  by_cases hg : g = d.guid
  · subst hg
    rcases h.only r hr with ⟨hsame, -⟩ | ⟨n, -, hfile⟩
    · rw [HasSplitsOf, Driver.splitsIn_congr hsame]
      exact hd
    · exact hasSplitsOf_of_mem (mem_records.2 (.inr ⟨n, hfile⟩))
  · exact hasSplitsOf_of_mem ((h.others g hg r).1 hr)

/-- What is filed after a step has the splits of a record of before. -/
theorem Step.hasSplitsOf {i : Input} (hstep : b.Step i c) (hfiled : b.Filed)
    (hi : i.isSnapshot = false) {n : String} {r : Driver}
    (hr : c.disconnected.get? ⟨g, n⟩ = some r) : b.HasSplitsOf g m r := by
  have hmem : r ∈ c.records g := mem_records.2 (.inr ⟨n, hr⟩)
  have hown : ∀ {a d}, b.connected.get? a = some d → b.HasSplitsOf d.guid m d := by
    intro a d hd
    obtain rfl : d.guid = a := hfiled.own a d hd
    exact hasSplitsOf_of_mem (mem_records.2 (.inl hd))
  cases hstep with
  | same => exact hasSplitsOf_of_mem hmem
  | resync s now => cases hi
  | connect car now =>
      refine (b.replaces_connect car now).hasSplitsOf ?_ hmem
      rw [guid_joining]
      exact b.hasSplitsOf_joining car now m
  | purge now hd => exact (replaces_purge hfiled hd).hasSplitsOf (hown hd) hmem
  | leave now hd => exact (replaces_file hfiled hd).hasSplitsOf (hown hd) hmem
  | put ev now hcar hd => exact hasSplitsOf_of_mem (mem_records.2 (.inr ⟨n, hr⟩))
  | @lap l a d now hd =>
      rw [foldl_raiseLaps_eq] at hr
      exact hasSplitsOf_of_mem (mem_records.2 (.inr ⟨n, hr⟩))
  | rank now =>
      have hsame : b.disconnected.get? ⟨g, n⟩ = some r := (Keyed.get?_arrange _ _ _).symm.trans hr
      exact hasSplitsOf_of_mem (mem_records.2 (.inr ⟨n, hsame⟩))
  | reset => cases hr

end Board

namespace Engine

variable {e : Engine} {g : Guid} {m : String} {i : Input} {ps : List Split}

/-- **ONE INPUT ADDS ITS SPLIT ONLY.** -/
theorem splitsFrom_react (h : e.board.SplitsFrom g m ps) (hfiled : e.board.Filed)
    (hi : i.isSnapshot = false) :
    (e.react i).1.board.SplitsFrom g m (ps ++ (e.board.splitOf? g m i).toList) := by
  intro r hr index p hp
  have hold : ∀ {q : Driver}, e.board.HasSplitsOf g m q → (q.splitsIn m).get? index = some p →
      p.index = index ∧ p ∈ ps ++ (e.board.splitOf? g m i).toList := by
    intro q hq hget
    obtain ⟨hindex, hmem⟩ := h.of_hasSplitsOf hq hget
    exact ⟨hindex, List.mem_append_left _ hmem⟩
  rcases Board.mem_records.1 hr with hconn | ⟨n, hfile⟩
  · by_cases hg : i.connects g = true
    · cases i with
      | event ev now =>
          cases ev with
          | newConnection car =>
              obtain rfl : car.guid = g := of_decide_eq_true hg
              have hjoin : (e.board.connect car now).connected.get? car.guid = some r := hconn
              rw [Board.get?_connected_connect, if_pos rfl] at hjoin
              obtain rfl := Option.some.inj hjoin
              exact hold (e.board.hasSplitsOf_joining car now m) hp
          | _ => cases hg
      | tick t now => cases hg
      | reset => cases hg
    · obtain ⟨d, hd, hsplits⟩ := splitsIn_react (m := m) hi (Bool.eq_false_iff.2 hg) hconn
      have hd' : e.board.HasSplitsOf g m d :=
        Board.hasSplitsOf_of_mem (Board.mem_records.2 (.inl hd))
      rw [hsplits, Board.splitsIn_recordWith hd] at hp
      split at hp
      · rw [Table.get?_empty] at hp
        cases hp
      · cases hsplit : e.board.splitOf? g m i with
        | none =>
            rw [hsplit] at hp hold
            exact hold hd' hp
        | some q =>
            rw [hsplit] at hp hold
            replace hp : ((d.splitsIn m).insert q.index q).get? index = some p := hp
            rw [Table.get?_insert] at hp
            split at hp
            · next hindex =>
              obtain rfl := Option.some.inj hp
              exact ⟨hindex, List.mem_append_right _ List.mem_cons_self⟩
            · exact hold hd' hp
  · exact hold ((e.step_react i).hasSplitsOf hfiled hi hfile) hp

/-- **ALL SPLITS ARE RECEIVED IN THE RUN.** -/
theorem splitsFrom_run (h : e.board.SplitsFrom g m ps) (hfiled : e.board.Filed)
    {inputs : List Input} (hall : ∀ i ∈ inputs, i.isSnapshot = false) :
    (e.run inputs).board.SplitsFrom g m (ps ++ e.gather (fun b => b.splitOf? g m) inputs) := by
  induction inputs generalizing e ps with
  | nil =>
      rw [gather, List.append_nil]
      exact h
  | cons i inputs ih =>
      rw [run_cons, gather, ← List.append_assoc]
      exact ih (splitsFrom_react h hfiled (hall i List.mem_cons_self)) (filed_react hfiled i)
        fun j hj => hall j (List.mem_cons_of_mem i hj)

end Engine

end Pitwall
