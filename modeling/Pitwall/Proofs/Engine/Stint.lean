import Mathlib.Algebra.Ring.Int.Defs
import Pitwall.Proofs.Engine.Confined
import Pitwall.Proofs.Engine.Counting
import Pitwall.Proofs.Engine.Onward

/-!
# Stints — how the laps of a driver are kept

While nobody comes or goes, the active lap sheet of a driver is a ledger of the laps completed: each
lap is counted, its time is added, it is the last one, and it is the best one if it is valid and
beats the best so far. **`LapSheet.Enters`** says so of any number of laps at once; a single lap is
entered (**`LapSheet.enters_completeLap`**), and entries add up (**`LapSheet.Enters.append`**). So a
run enters the laps that the driver completes in it, whatever else it brings:
**`Engine.enters_of_run`**.
-/

namespace Pitwall

namespace LapReport

/-- The time of a lap in nanoseconds, as a number. -/
def nanos (l : LapReport) : Int := l.millis.toNat * 1000000

/-- Whether a lap may become the best one: it took some time, and the track was not cut. -/
def isValid (l : LapReport) : Bool := l.cuts == 0 && decide (0 < l.millis)

/-- The times of the valid laps. -/
def validNanos (laps : List LapReport) : List Int := (laps.filter isValid).map nanos

theorem validNanos_append (ks ls : List LapReport) :
    validNanos (ks ++ ls) = validNanos ks ++ validNanos ls := by
  simp [validNanos]

theorem pos_of_mem_validNanos {laps : List LapReport} {n : Int} (h : n ∈ validNanos laps) :
    0 < n := by
  obtain ⟨l, hl, rfl⟩ := List.mem_map.1 h
  have hvalid := (List.mem_filter.1 hl).2
  simp only [isValid, Bool.and_eq_true, decide_eq_true_eq] at hvalid
  have hpos := UInt32.lt_iff_toNat_lt.1 hvalid.2
  show (0 : Int) < l.millis.toNat * 1000000
  simp only [UInt32.toNat_zero] at hpos
  omega

end LapReport

namespace LapSheet

/-- The best lap of a sheet, if a valid one has been set. -/
def validBest (s : LapSheet) : List Int := if s.hasValidLap then [s.bestLap.toInt] else []

theorem hasValidLap_iff (s : LapSheet) : s.hasValidLap = true ↔ 0 < s.bestLap.toInt := by
  rw [hasValidLap, decide_eq_true_iff, Int64.lt_iff_toInt_lt, Int64.toInt_zero]

/-- The sheet `t` is the sheet `s` with some laps entered. -/
structure Enters (s t : LapSheet) (entered : List LapReport) : Prop where
  /-- Every lap counts. -/
  laps : t.laps.toNat = s.laps.toNat + entered.length
  /-- The times add up. -/
  time : t.totalTime.toInt = s.totalTime.toInt + (entered.map LapReport.nanos).sum
  /-- The last lap is the last one entered, if any. -/
  last : t.lastLap.toInt = (entered.map LapReport.nanos).getLast?.getD s.lastLap.toInt
  /-- The best lap is the least of the one so far and of the valid laps entered, if there is any of
  these. -/
  best : t.bestLap.toInt =
    (s.validBest ++ LapReport.validNanos entered).min?.getD s.bestLap.toInt

theorem Enters.of_ledger_eq {s t : LapSheet} (hlaps : t.laps = s.laps)
    (htime : t.totalTime = s.totalTime) (hlast : t.lastLap = s.lastLap)
    (hbest : t.bestLap = s.bestLap) : s.Enters t [] where
  laps := by rw [hlaps]; rfl
  time := by rw [htime]; exact (Int.add_zero _).symm
  last := by rw [hlast]; rfl
  best := by
    rw [hbest, validBest]
    split <;> rfl

theorem Enters.refl (s : LapSheet) : s.Enters s [] := .of_ledger_eq rfl rfl rfl rfl

/-- The best lap after more laps is the least of all, whether the laps come at once or in two
parts. -/
theorem Enters.best_append {s t : LapSheet} {ks : List LapReport} (h : s.Enters t ks)
    (ls : List LapReport) :
    (t.validBest ++ LapReport.validNanos ls).min?.getD t.bestLap.toInt =
      (s.validBest ++ LapReport.validNanos (ks ++ ls)).min?.getD s.bestLap.toInt := by
  have hbest := h.best
  rw [LapReport.validNanos_append, ← List.append_assoc]
  have hpos : ∀ n ∈ s.validBest ++ LapReport.validNanos ks, 0 < n := by
    intro n hn
    rcases List.mem_append.1 hn with hn | hn
    · rw [validBest] at hn
      split at hn
      · next hvalid =>
        rw [List.mem_singleton.1 hn]
        exact s.hasValidLap_iff.1 hvalid
      · exact absurd hn List.not_mem_nil
    · exact LapReport.pos_of_mem_validNanos hn
  cases hall : s.validBest ++ LapReport.validNanos ks with
  | nil =>
      -- no valid lap so far: the best lap has stayed, and is none
      rw [hall] at hbest
      have hsame : t.bestLap.toInt = s.bestLap.toInt := hbest
      have hnone : t.validBest = [] := by
        have hs : s.validBest = [] := (List.append_eq_nil_iff.1 hall).1
        have hinvalid : ¬ s.hasValidLap = true := by
          intro hvalid
          rw [validBest, if_pos hvalid] at hs
          cases hs
        rw [validBest, if_neg]
        rw [hasValidLap_iff, hsame, ← hasValidLap_iff]
        exact hinvalid
      rw [hnone, hsame]
  | cons n ns =>
      rw [hall] at hbest hpos
      have hmin : t.bestLap.toInt = ns.foldl min n := hbest
      have hvalid : t.hasValidLap = true := by
        have hmem : ns.foldl min n ∈ n :: ns := List.min?_mem List.min?_cons'
        rw [hasValidLap_iff, hmin]
        exact hpos _ hmem
      rw [validBest, if_pos hvalid, hmin, List.cons_append, List.nil_append, List.min?_cons',
        List.cons_append, List.min?_cons', List.foldl_append]
      rfl

/-- **ENTRIES ADD UP.** -/
theorem Enters.append {s t u : LapSheet} {ks ls : List LapReport} (h : s.Enters t ks)
    (h' : t.Enters u ls) : s.Enters u (ks ++ ls) where
  laps := by
    rw [h'.laps, h.laps, List.length_append, Nat.add_assoc]
  time := by
    rw [h'.time, h.time, List.map_append, List.sum_append, Int.add_assoc]
  last := by
    rw [h'.last, h.last, List.map_append, List.getLast?_append]
    cases (ls.map LapReport.nanos).getLast? <;> rfl
  best := by
    rw [h'.best, h.best_append]

/-- A lap is an improvement if it is valid and beats the best lap, if there is one. -/
theorem improvedBy_iff (s : LapSheet) (l : LapReport) :
    s.improvedBy (Driver.nanosOfMillis l.millis) l.cuts = true ↔
      l.isValid = true ∧ (s.hasValidLap = true → l.nanos < s.bestLap.toInt) := by
  have htime : (Driver.nanosOfMillis l.millis).toInt = l.nanos :=
    Driver.toInt_nanosOfMillis l.millis
  have hpos : 0 < Driver.nanosOfMillis l.millis ↔ 0 < l.millis := by
    rw [Int64.lt_iff_toInt_lt, htime, Int64.toInt_zero, UInt32.lt_iff_toNat_lt,
      UInt32.toNat_zero, LapReport.nanos]
    omega
  have hless : Driver.nanosOfMillis l.millis < s.bestLap ↔ l.nanos < s.bestLap.toInt := by
    rw [Int64.lt_iff_toInt_lt, htime]
  simp only [improvedBy, LapReport.isValid, Bool.and_eq_true, Bool.or_eq_true,
    Bool.not_eq_true', decide_eq_true_eq, hpos, hless]
  cases s.hasValidLap <;> simp

/-- **ONE LAP IS ENTERED**, if there is room to count it. -/
theorem enters_completeLap (s : LapSheet) (l : LapReport) (tyres : String) (now : Instant)
    (hlaps : s.laps.toNat + 1 < UInt32.size)
    (htime : s.totalTime.toInt + l.nanos ≤ Int64.maxValue.toInt) :
    s.Enters (s.completeLap (Driver.nanosOfMillis l.millis) l.cuts tyres now) [l] where
  laps := by
    rw [laps_completeLap, UInt32.toNat_add]
    exact Nat.mod_eq_of_lt hlaps
  time := by
    have hlow := s.totalTime.minValue_le_toInt
    have hnanos : (0 : Int) ≤ l.nanos := by
      show (0 : Int) ≤ l.millis.toNat * 1000000
      omega
    rw [totalTime_completeLap, Int64.toInt_add, Driver.toInt_nanosOfMillis, List.map_singleton,
      List.sum_singleton]
    refine Int.bmod_eq_of_le ?_ ?_
    · show _ ≤ s.totalTime.toInt + l.nanos
      simp only [Int64.toInt_minValue] at hlow
      omega
    · show s.totalTime.toInt + l.nanos < _
      simp only [Int64.toInt_maxValue] at htime
      omega
  last := by
    rw [lastLap_completeLap, Driver.toInt_nanosOfMillis]
    rfl
  best := by
    rw [(s.best_completeLap _ _ tyres now).1]
    have himp := s.improvedBy_iff l
    by_cases hvalid : l.isValid = true
    · have hnanos : LapReport.validNanos [l] = [l.nanos] := by
        rw [LapReport.validNanos, List.filter_cons, if_pos hvalid]
        rfl
      rw [hnanos, validBest]
      by_cases hbest : s.hasValidLap = true
      · rw [if_pos hbest]
        show _ = min s.bestLap.toInt l.nanos
        split
        · next h =>
          rw [Driver.toInt_nanosOfMillis]
          exact (Int.min_eq_right (Int.le_of_lt ((himp.1 h).2 hbest))).symm
        · next h =>
          refine (Int.min_eq_left (Int.not_lt.1 fun hless => h ?_)).symm
          exact himp.2 ⟨hvalid, fun _ => hless⟩
      · rw [if_neg hbest, if_pos (himp.2 ⟨hvalid, fun h => absurd h hbest⟩)]
        exact Driver.toInt_nanosOfMillis l.millis
    · have hnanos : LapReport.validNanos [l] = [] := by
        rw [LapReport.validNanos, List.filter_cons, if_neg hvalid]
        rfl
      rw [hnanos, if_neg fun h => hvalid (himp.1 h).1, validBest]
      split <;> rfl

end LapSheet

namespace Driver

/-- The record `r` is the record `d` with some laps entered. -/
structure Enters (d r : Driver) (entered : List LapReport) : Prop where
  /-- The car stays. -/
  model : r.model = d.model
  /-- The laps are entered on its sheet. -/
  sheet : d.sheet.Enters r.sheet entered
  /-- A sheet that is there stays, and a lap brings one. -/
  kept : d.sheet?.isSome = true ∨ entered ≠ [] → r.sheet?.isSome = true
  /-- The laps of the driver grow by those entered at least. -/
  total : d.totalLaps.toNat + entered.length ≤ r.totalLaps.toNat

theorem Enters.refl (d : Driver) : d.Enters d [] where
  model := rfl
  sheet := .refl _
  kept := by
    rintro (hkept | hlap)
    · exact hkept
    · exact absurd rfl hlap
  total := Nat.le_refl _

theorem Enters.append {d r q : Driver} {ks ls : List LapReport} (h : d.Enters r ks)
    (h' : r.Enters q ls) : d.Enters q (ks ++ ls) where
  model := h'.model.trans h.model
  sheet := h.sheet.append h'.sheet
  kept := by
    rintro (hkept | hlap)
    · exact h'.kept (.inl (h.kept (.inl hkept)))
    · by_cases hks : ks = []
      · rw [hks, List.nil_append] at hlap
        exact h'.kept (.inr hlap)
      · exact h'.kept (.inl (h.kept (.inr hks)))
  total := by
    have hfirst := h.total
    have hrest := h'.total
    rw [List.length_append]
    omega

/-- Laps that a leaderboard knows of come on top. -/
theorem Enters.raise {d r : Driver} {entered : List LapReport} (h : d.Enters r entered)
    {n : UInt32} (hn : r.totalLaps ≤ n) : d.Enters { r with totalLaps := n } entered where
  model := h.model
  sheet := h.sheet
  kept := h.kept
  total := Nat.le_trans h.total (UInt32.le_iff_toNat_le.1 hn)

/-- **ONE LAP IS ENTERED** on the record of the driver who completes it. -/
theorem enters_completeLap (d : Driver) (l : LapReport) (now : Instant) (h : d.HasRoomForLap l) :
    d.Enters (d.completeLap l now) [l] where
  model := rfl
  sheet := by
    rw [sheet_completeLap]
    exact LapSheet.enters_completeLap _ l _ now h.sheetLaps h.time
  kept := by
    intro _
    show ((d.sheets.insert d.model _).get? d.model).isSome = true
    rw [Table.get?_insert, if_pos rfl]
    rfl
  total := by
    have hroom := h.laps
    show d.totalLaps.toNat + 1 ≤ (d.totalLaps + 1).toNat
    rw [UInt32.toNat_add]
    exact Nat.le_of_eq (Nat.mod_eq_of_lt hroom).symm

/-- Another event on the track leaves laps and best lap of the active sheet alone. -/
theorem sheet_enters_recordAfter (b : Board) (now : Instant) (d : Driver) (ev : Event) :
    d.sheet.Enters (b.recordAfter now d ev).sheet [] := by
  cases ev with
  | clientLoaded car =>
      show d.sheet.Enters (d.load now).sheet []
      rw [load]
      split
      · exact .refl _
      · exact .refl _
  | carUpdate t =>
      show d.sheet.Enters (d.drive t now).sheet []
      rw [drive, sheet_setSheet]
      exact .of_ledger_eq rfl rfl rfl rfl
  | splitCompleted s =>
      show d.sheet.Enters (d.addSplit _).sheet []
      rw [addSplit, sheet_setSheet]
      exact .of_ledger_eq rfl rfl rfl rfl
  | tyresChanged car =>
      show d.sheet.Enters (sheet { d with car := { d.car with tyres := car.tyres } }) []
      have hsame : sheet { d with car := { d.car with tyres := car.tyres } } = d.sheet := rfl
      rw [hsame]
      exact .refl _
  | _ => exact .refl _

theorem totalLaps_recordAfter (b : Board) (now : Instant) (d : Driver) (ev : Event) :
    (b.recordAfter now d ev).totalLaps = d.totalLaps := by
  cases ev with
  | clientLoaded car =>
      show (d.load now).totalLaps = d.totalLaps
      rw [load]
      split <;> rfl
  | _ => rfl

/-- Another event on the track enters no lap. -/
theorem enters_recordAfter (b : Board) (now : Instant) (d : Driver) (ev : Event) :
    d.Enters (b.recordAfter now d ev) [] := by
  have hon : d.Continues (b.recordAfter now d ev) False := b.continues_recordAfter now d ev
  refine ⟨hon.model, sheet_enters_recordAfter b now d ev, ?_, ?_⟩
  · rintro (hkept | hlap)
    · obtain ⟨s, hs⟩ := Option.isSome_iff_exists.1 hkept
      obtain ⟨t, ht, -⟩ := hon.active s hs
      rw [ht]
      rfl
    · exact absurd rfl hlap
  · rw [totalLaps_recordAfter]
    exact Nat.le_refl _

end Driver

/-! ## Runs -/

/-- The lap that a driver completes with an input. -/
def Board.lapOf? (b : Board) (g : Guid) : Input → Option LapReport
  | .event (.lapCompleted l) _ => if b.occupant? l.carId = some g then some l else none
  | _ => none

namespace Engine

/-- Whether a number that an input makes the engine work out does not fit its word. -/
def overflowsWith (e : Engine) : Input → Bool
  | .event ev _ => e.overflows ev
  | _ => false

/-- No input of a run makes the engine overflow. -/
def NoOverflowIn (e : Engine) : List Input → Prop
  | [] => True
  | i :: inputs => e.overflowsWith i = false ∧ (e.react i).1.NoOverflowIn inputs

instance decidableNoOverflowIn (e : Engine) : (inputs : List Input) →
    Decidable (e.NoOverflowIn inputs)
  | [] => isTrue trivial
  | i :: inputs =>
    have := decidableNoOverflowIn (e.react i).1 inputs
    inferInstanceAs (Decidable (_ ∧ _))

variable {e : Engine} {g : Guid} {d : Driver}

/-- What an input makes of the record of a driver has the lap entered that the driver completes with
it. -/
theorem enters_recordWith (hd : e.board.connected.get? g = some d) {i : Input}
    (hroom : e.overflowsWith i = false) :
    d.Enters (e.board.recordWith g d i) (e.board.lapOf? g i).toList := by
  cases i with
  | event ev now =>
      by_cases hlap : ∃ l, ev = .lapCompleted l
      · obtain ⟨l, rfl⟩ := hlap
        show d.Enters (if e.board.occupant? l.carId = some g then d.completeLap l now else d)
          (if e.board.occupant? l.carId = some g then some l else none).toList
        split
        · next hg =>
          obtain ⟨c, hat⟩ := Board.occupant?_eq_some_iff.1 hg
          obtain rfl : d = c := Option.some.inj (hd.symm.trans (Board.atCar?_eq_some_iff.1 hat).2)
          exact d.enters_completeLap l now ((e.overflows_eq_false_iff _).1 hroom (g, d) hat)
        · exact .refl d
      · have hnone : e.board.lapOf? g (.event ev now) = none := by
          cases ev with
          | lapCompleted l => exact absurd ⟨l, rfl⟩ hlap
          | _ => rfl
        have hon : e.board.recordOn now d ev = e.board.recordAfter now d ev := by
          cases ev with
          | lapCompleted l => exact absurd ⟨l, rfl⟩ hlap
          | _ => rfl
        rw [hnone]
        show d.Enters (if _ then e.board.recordOn now d ev else d) []
        rw [hon]
        split
        · exact d.enters_recordAfter e.board now ev
        · exact .refl d
  | tick t now => exact .refl d
  | reset => exact .refl d

/-- **A RUN ENTERS THE LAPS OF A DRIVER**, each one once and no others, while nobody comes or goes
and the words hold what is counted. -/
theorem enters_of_run (hd : e.board.connected.get? g = some d) {inputs : List Input}
    (hall : ∀ i ∈ inputs, i.onTrack = true) (hroom : e.NoOverflowIn inputs) :
    ∃ r, (e.run inputs).board.connected.get? g = some r ∧
      d.Enters r (e.gather (fun b => b.lapOf? g) inputs) := by
  induction inputs generalizing e d with
  | nil => exact ⟨d, hd, .refl d⟩
  | cons i inputs ih =>
      obtain ⟨n, hone, hle⟩ := exists_record_react hd (hall i List.mem_cons_self)
      have hlap := (enters_recordWith hd hroom.1).raise hle
      have hrest : ∀ j ∈ inputs, j.onTrack = true := fun j hj => hall j (List.mem_cons_of_mem _ hj)
      obtain ⟨r, hr, hlaps⟩ := ih hone hrest hroom.2
      exact ⟨r, hr, hlap.append hlaps⟩

/-- Ann drives a lap, Bob drives one and brings a leaderboard that knows of five laps of Ann, Ann
cuts the track on a faster lap. -/
theorem enters_of_run_of_two_drivers :
    let ann : CarInfo := { carId := 1, guid := ⟨"a"⟩, model := "m3" }
    let bob : CarInfo := { carId := 2, guid := ⟨"b"⟩, model := "m3" }
    let e := initial.run [.event (.newConnection ann) .zero, .event (.newConnection bob) .zero]
    let d := Driver.ofCar ann .zero
    let laps : List LapReport :=
      [{ carId := 1, millis := 80000 }, { carId := 1, millis := 70000, cuts := 1 }]
    let inputs : List Input :=
      [.event (.lapCompleted { carId := 1, millis := 80000 }) .zero,
       .event (.carUpdate { carId := 1 }) .zero,
       .event (.lapCompleted
         { carId := 2, millis := 75000, leaderboard := [{ carId := 1, laps := 5 }] }) .zero,
       .tick .standings .zero,
       .event (.lapCompleted { carId := 1, millis := 70000, cuts := 1 }) .zero]
    e.Reachable ∧ e.board.connected.get? ⟨"a"⟩ = some d ∧ (∀ i ∈ inputs, i.onTrack = true) ∧
      e.NoOverflowIn inputs ∧ e.gather (fun b => b.lapOf? ⟨"a"⟩) inputs = laps ∧
      ∃ r, (e.run inputs).board.connected.get? ⟨"a"⟩ = some r ∧ d.Enters r laps ∧
        r.sheet.laps = 2 ∧ r.sheet.totalTime = 150000000000 ∧ r.sheet.lastLap = 70000000000 ∧
        r.sheet.bestLap = 80000000000 ∧ r.totalLaps = 6 := by
  intro ann bob e d laps inputs
  have hd : e.board.connected.get? ⟨"a"⟩ = some d := by decide +kernel
  have hall : ∀ i ∈ inputs, i.onTrack = true := by
    simp [inputs, Input.onTrack, Event.rearranges]
  have hroom : e.NoOverflowIn inputs := by decide +kernel
  have hlaps : e.gather (fun b => b.lapOf? ⟨"a"⟩) inputs = laps := by decide +kernel
  obtain ⟨r, hr, henters⟩ := enters_of_run hd hall hroom
  rw [hlaps] at henters
  have hfigures : ((e.run inputs).board.connected.get? ⟨"a"⟩).map
      (fun r => (r.sheet.laps, r.sheet.totalTime, r.sheet.lastLap, r.sheet.bestLap, r.totalLaps)) =
      some (2, 150000000000, 70000000000, 80000000000, 6) := by decide +kernel
  rw [hr, Option.map_some, Option.some.injEq] at hfigures
  simp only [Prod.mk.injEq] at hfigures
  obtain ⟨hcount, htime, hlast, hbest, htotal⟩ := hfigures
  exact ⟨⟨_, rfl⟩, hd, hall, hroom, hlaps, r, hr, henters, hcount, htime, hlast, hbest, htotal⟩

end Engine

end Pitwall
