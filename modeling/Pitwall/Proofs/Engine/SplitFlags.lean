import Pitwall.Proofs.Engine.Splits

/-!
# Split flags — what the flags of a split say

A split is flagged when it beats the splits of best laps: those of all connected drivers in all cars
to be the best of all (**`Board.beats_bestSplit?_iff`**), and the one of the driver in the car driven
to be the driver's best (**`Driver.beats_ownSplit?_iff`**). Cut splits are no times to beat, and for
the best of all neither are times that are not positive. Of the driver's own split the latter is not
asked, so a best lap with a split time of 0 keeps the flag from every split after it:
**`Engine.flags_of_split`**. No split that is judged changes a best lap.
-/

namespace Pitwall

namespace Split

/-- The split is a time to beat: uncut and positive. -/
def Counts (p : Split) : Prop := p.isCut = false ∧ 0 < p.time

instance (p : Split) : Decidable p.Counts := inferInstanceAs (Decidable (_ ∧ _))

/-- To beat an uncut split is to beat it if it counts, unless it is not positive: no time that counts
beats it then, but none has to. -/
theorem beats_uncut_iff_beats_counting (p : Split) (own : Option Split) :
    ((p.Counts ∧ ∀ best, own = some best → best.isCut = false → p.time < best.time) ↔
        p.Counts ∧ ∀ best, own = some best → best.Counts → p.time < best.time) ↔
      ¬ (p.Counts ∧ ∃ best, own = some best ∧ best.isCut = false ∧ ¬ 0 < best.time) := by
  constructor
  · rintro hiff ⟨hcount, best, hown, huncut, hpos⟩
    have hnone : ∀ q, own = some q → q.Counts → p.time < q.time := by
      intro q hq hcounts
      obtain rfl : best = q := Option.some.inj (hown.symm.trans hq)
      exact absurd hcounts.2 hpos
    have hless := (hiff.2 ⟨hcount, hnone⟩).2 best hown huncut
    exact hpos (Int64.lt_trans hcount.2 hless)
  · intro hnone
    refine and_congr_right fun hcount => ?_
    constructor
    · intro hall best hown hbest
      exact hall best hown hbest.1
    · intro hall best hown huncut
      by_cases hpos : 0 < best.time
      · exact hall best hown ⟨huncut, hpos⟩
      · exact absurd ⟨hcount, best, hown, huncut, hpos⟩ hnone

end Split

/-! ## The splits of best laps -/

namespace Driver

variable {d : Driver} {index : UInt8} {time : Int64}

/-- The splits of the best lap in a car. -/
def bestSplitsIn (d : Driver) (m : String) : Table UInt8 Split :=
  ((d.sheets.get? m).map LapSheet.bestSplits).getD .empty

theorem bestSplits_sheet (d : Driver) : d.sheet.bestSplits = d.bestSplitsIn d.model := by
  rw [sheet, sheet?, bestSplitsIn]
  cases d.sheets.get? d.model <;> rfl

/-- Setting the active sheet to one with the same best lap changes no best lap. -/
theorem bestSplitsIn_setSheet {t : LapSheet} (ht : t.bestSplits = d.sheet.bestSplits) (m : String) :
    (d.setSheet t).bestSplitsIn m = d.bestSplitsIn m := by
  show (((d.sheets.insert d.model t).get? m).map LapSheet.bestSplits).getD .empty = _
  rw [Table.get?_insert]
  by_cases hm : d.model = m
  · rw [if_pos hm, Option.map_some, Option.getD_some, ht, bestSplits_sheet, hm]
  · rw [if_neg hm]
    rfl

/-- A split of the lap under way changes no best lap. -/
theorem bestSplitsIn_addSplit (d : Driver) (p : Split) (m : String) :
    (d.addSplit p).bestSplitsIn m = d.bestSplitsIn m := by
  rw [addSplit]
  exact bestSplitsIn_setSheet (by rfl) m

theorem mem_bestSplits_iff {p : Split} :
    p ∈ d.bestSplits index ↔ ∃ m, (d.bestSplitsIn m).get? index = some p := by
  rw [mem_bestSplits]
  refine exists_congr fun m => ?_
  rw [bestSplitsIn]
  cases hs : d.sheets.get? m with
  | none => simp
  | some s => simp

/-- The driver's own time is beaten exactly if the uncut split of the best lap in the car driven is
slower, if there is one. -/
theorem beats_ownSplit?_iff : beats time (d.ownSplit? index) = true ↔
    ∀ best, (d.bestSplitsIn d.model).get? index = some best → best.isCut = false →
      time < best.time := by
  rw [ownSplit?, bestSplits_sheet]
  cases hp : (d.bestSplitsIn d.model).get? index with
  | none => exact iff_of_true rfl fun best hbest => nomatch hbest
  | some p =>
      cases hcut : p.isCut with
      | true =>
          simp only [Option.filter_some, hcut, Bool.not_true]
          refine iff_of_true rfl ?_
          rintro best hbest huncut
          rw [← Option.some.inj hbest, hcut] at huncut
          cases huncut
      | false =>
          simp only [Option.filter_some, hcut, Bool.not_false]
          show decide (time < p.time) = true ↔ _
          rw [decide_eq_true_iff]
          constructor
          · rintro hless best hbest -
            rw [← Option.some.inj hbest]
            exact hless
          · intro h
            exact h p rfl hcut

/-! ## The flags -/

/-- A split counts if the report is uncut and has a positive time. -/
theorem counts_judgeSplit_iff (d : Driver) (s : SplitReport) (best : Option Int64) :
    (s.cuts == 0 && decide (0 < nanosOfMillis s.millis)) = true ↔ (d.judgeSplit s best).Counts := by
  rw [Bool.and_eq_true, decide_eq_true_iff, beq_iff_eq]
  refine and_congr_left fun _ => ?_
  show s.cuts = 0 ↔ (s.cuts != 0) = false
  rw [bne_eq_false_iff_eq]

theorem isBest_judgeSplit_iff (d : Driver) (s : SplitReport) (best : Option Int64) :
    (d.judgeSplit s best).isBest = true ↔
      (d.judgeSplit s best).Counts ∧ beats (nanosOfMillis s.millis) best = true := by
  rw [← counts_judgeSplit_iff]
  exact Bool.and_eq_true_iff

theorem isDriversBest_judgeSplit_iff (d : Driver) (s : SplitReport) (best : Option Int64) :
    (d.judgeSplit s best).isDriversBest = true ↔
      (d.judgeSplit s best).Counts ∧
        beats (nanosOfMillis s.millis) (d.ownSplit? s.index) = true := by
  rw [← counts_judgeSplit_iff]
  exact Bool.and_eq_true_iff

end Driver

/-- A time beats the least of a list exactly if it beats all of them. -/
theorem beats_min?_iff {time : Int64} {l : List Int64} :
    beats time l.min? = true ↔ ∀ t ∈ l, time < t := by
  cases ht : l.min? with
  | none =>
      rw [List.min?_eq_none_iff] at ht
      subst ht
      exact iff_of_true rfl fun t h => nomatch h
  | some least =>
      obtain ⟨hmem, hle⟩ := List.min?_eq_some_iff.1 ht
      show decide (time < least) = true ↔ _
      rw [decide_eq_true_iff]
      constructor
      · intro hless t h
        exact Int64.lt_of_lt_of_le hless (hle t h)
      · intro h
        exact h least hmem

namespace Board

variable {b : Board} {index : UInt8} {time : Int64}

/-- The best time of all is beaten exactly if all splits that count are slower, in the best laps of
all connected drivers in all cars. -/
theorem beats_bestSplit?_iff : beats time (b.bestSplit? index) = true ↔
    ∀ h q m best, b.connected.get? h = some q → (q.bestSplitsIn m).get? index = some best →
      best.Counts → time < best.time := by
  have hcounts : ∀ p : Split, (!p.isCut && decide (0 < p.time)) = true ↔ p.Counts := by
    intro p
    rw [Bool.and_eq_true, Bool.not_eq_true', decide_eq_true_iff]
    rfl
  have hmem : ∀ p, p ∈ b.connected.values.flatMap (Driver.bestSplits · index) ↔
      ∃ h q m, b.connected.get? h = some q ∧ (q.bestSplitsIn m).get? index = some p := by
    intro p
    simp only [List.mem_flatMap, Keyed.mem_values_iff, Driver.mem_bestSplits_iff]
    constructor
    · rintro ⟨q, ⟨h, hq⟩, m, hp⟩
      exact ⟨h, q, m, hq, hp⟩
    · rintro ⟨h, q, m, hq, hp⟩
      exact ⟨q, ⟨h, hq⟩, m, hp⟩
  show beats time (((b.connected.values.flatMap (Driver.bestSplits · index)).filter _).map
    Split.time).min? = true ↔ _
  rw [beats_min?_iff]
  simp only [List.forall_mem_map, List.mem_filter, hcounts, hmem]
  constructor
  · intro hall h q m best hq hbest hcount
    exact hall best ⟨⟨h, q, m, hq, hbest⟩, hcount⟩
  · rintro hall best ⟨⟨h, q, m, hq, hbest⟩, hcount⟩
    exact hall h q m best hq hbest hcount

end Board

namespace Engine

/-- **WHAT THE FLAGS OF A SPLIT SAY**, for a split of a connected driver. It is flagged as the best of
all exactly if it counts and beats all splits of its number that count, in the best laps of all
connected drivers in all cars. It is flagged as the driver's best exactly if it counts and beats the
uncut split of the best lap in the car driven. That is as if only a split that counts had to be
beaten, except where the split of the best lap is uncut and not positive; and the best of all is also
the driver's best, except there. No best lap changes. -/
theorem flags_of_split {e : Engine} {s : SplitReport} {g : Guid} {d : Driver}
    (hd : e.board.atCar? s.carId = some (g, d)) (now : Instant) :
    let b := e.board
    let c := (e.apply (.splitCompleted s) now).1.board
    let own := (d.bestSplitsIn d.model).get? s.index
    ∃ r p, c.connected.get? g = some r ∧ r.model = d.model ∧
      (r.splitsIn d.model).get? s.index = some p ∧
      p.time = Driver.nanosOfMillis s.millis ∧ p.cuts = s.cuts ∧
      (p.isBest = true ↔ p.Counts ∧ ∀ h q m best, b.connected.get? h = some q →
        (q.bestSplitsIn m).get? s.index = some best → best.Counts → p.time < best.time) ∧
      (p.isDriversBest = true ↔ p.Counts ∧
        ∀ best, own = some best → best.isCut = false → p.time < best.time) ∧
      ((p.isDriversBest = true ↔ p.Counts ∧
          ∀ best, own = some best → best.Counts → p.time < best.time) ↔
        ¬ (p.Counts ∧ ∃ best, own = some best ∧ best.isCut = false ∧ ¬ 0 < best.time)) ∧
      ((∀ best, own = some best → best.isCut = false → 0 < best.time) →
        p.isBest = true → p.isDriversBest = true) ∧
      (∀ h m, (c.connected.get? h).map (·.bestSplitsIn m) =
        (b.connected.get? h).map (·.bestSplitsIn m)) ∧
      c.disconnected = b.disconnected := by
  intro b c own
  have hget : b.connected.get? g = some d := (Board.atCar?_eq_some_iff.1 hd).2
  let p := d.judgeSplit s (b.bestSplit? s.index)
  have hplace : (Event.splitCompleted s).place? = some s.carId := rfl
  have hc : c = b.put g (d.addSplit p) none :=
    (merge_of_place? { e with lastAppliedAt := some now } now hplace hd).1
  have hr : c.connected.get? g = some (d.addSplit p) := by
    rw [hc, Board.get?_connected_put, if_pos rfl, hget]
    rfl
  have hsplit : ((d.addSplit p).splitsIn d.model).get? s.index = some p := by
    rw [d.splitsIn_insert (r := d.addSplit p) d.model rfl, if_pos rfl]
    show (d.sheet.currentSplits.insert s.index p).get? s.index = some p
    rw [Table.get?_insert, if_pos rfl]
  have hbest : p.isBest = true ↔ p.Counts ∧ ∀ h q m best, b.connected.get? h = some q →
      (q.bestSplitsIn m).get? s.index = some best → best.Counts → p.time < best.time :=
    (d.isBest_judgeSplit_iff s _).trans (and_congr_right fun _ => Board.beats_bestSplit?_iff)
  have hown : p.isDriversBest = true ↔ p.Counts ∧
      ∀ best, own = some best → best.isCut = false → p.time < best.time :=
    (d.isDriversBest_judgeSplit_iff s _).trans (and_congr_right fun _ => Driver.beats_ownSplit?_iff)
  refine ⟨d.addSplit p, p, hr, rfl, hsplit, rfl, rfl, hbest, hown, ?_, ?_, ?_, ?_⟩
  · rw [hown]
    exact p.beats_uncut_iff_beats_counting own
  · -- the driver's own split is one of all
    intro hpos hflag
    obtain ⟨hcount, hall⟩ := hbest.1 hflag
    refine hown.2 ⟨hcount, ?_⟩
    intro best hmine huncut
    exact hall g d d.model best hget hmine ⟨huncut, hpos best hmine huncut⟩
  · intro h m
    rw [hc, Board.get?_connected_put]
    split
    · next hg =>
      rw [hg, hget, Option.map_some, Option.map_some, Option.map_some,
        d.bestSplitsIn_addSplit p m]
    · rfl
  · rw [hc]
    rfl

/-- One driver has a best lap with a split, another one has none and is faster up to there: the split
is the best of all, and so it is also the driver's best. -/
theorem flags_of_split_of_two_drivers :
    let ann : CarInfo := { carId := 1, guid := ⟨"a"⟩, model := "m3" }
    let bob : CarInfo := { carId := 2, guid := ⟨"b"⟩, model := "m3" }
    let split : SplitReport := { carId := 2, index := 0, millis := 29500 }
    let e := initial.run
      [.event (.newConnection ann) .zero, .event (.newConnection bob) .zero,
       .event (.splitCompleted { carId := 1, index := 0, millis := 30000 }) .zero,
       .event (.lapCompleted { carId := 1, millis := 95000 }) .zero]
    let c := (e.apply (.splitCompleted split) .zero).1.board
    ∃ d, e.board.atCar? split.carId = some (⟨"b"⟩, d) ∧ ∃ r p, c.connected.get? ⟨"b"⟩ = some r ∧
      (r.splitsIn "m3").get? 0 = some p ∧ p.isBest = true ∧ p.isDriversBest = true := by
  intro ann bob split e c
  obtain ⟨⟨g, d⟩, hat, hg, hm, hnone⟩ : ∃ p ∈ e.board.atCar? split.carId, p.1 = ⟨"b"⟩ ∧
      p.2.model = "m3" ∧ (p.2.bestSplitsIn "m3").get? split.index = none := by decide +kernel
  subst hg
  obtain ⟨r, p, hr, -, hsplit, -, -, -, -, -, hboth, -, -⟩ := flags_of_split hat .zero
  rw [hm] at hsplit hboth
  obtain ⟨r', hr', p', hp', hbest⟩ : ∃ r ∈ c.connected.get? ⟨"b"⟩,
      ∃ p ∈ (r.splitsIn "m3").get? split.index, p.isBest = true := by decide +kernel
  obtain rfl : r' = r := Option.some.inj (hr'.symm.trans hr)
  obtain rfl : p' = p := Option.some.inj (hp'.symm.trans hsplit)
  refine ⟨d, hat, r', p', hr, hsplit, hbest, hboth ?_ hbest⟩
  intro best hown
  rw [hnone] at hown
  cases hown

/-- It is not true that the best split of all is always also the driver's best: the best lap of a
driver has a split time of 0. The next split of the driver is the best of all, as that one does not
count there, but it is not flagged as the driver's best. -/
theorem best_but_not_drivers_best :
    ¬ ∀ (e : Engine) (s : SplitReport) (g : Guid) (d : Driver) (now : Instant), e.Reachable →
      e.board.atCar? s.carId = some (g, d) →
      ∀ r p, (e.apply (.splitCompleted s) now).1.board.connected.get? g = some r →
        (r.splitsIn d.model).get? s.index = some p → p.isBest = true → p.isDriversBest = true := by
  intro h
  let ann : CarInfo := { carId := 1, guid := ⟨"a"⟩, model := "m3" }
  let split : SplitReport := { carId := 1, index := 0, millis := 30000 }
  let e := initial.run
    [.event (.newConnection ann) .zero, .event (.splitCompleted { split with millis := 0 }) .zero,
     .event (.lapCompleted { carId := 1, millis := 95000 }) .zero]
  obtain ⟨⟨g, d⟩, hat, hg, hm⟩ : ∃ p ∈ e.board.atCar? split.carId,
      p.1 = ⟨"a"⟩ ∧ p.2.model = "m3" := by decide +kernel
  subst hg
  obtain ⟨r, hr, p, hp, hbest, hown⟩ :
      ∃ r ∈ (e.apply (.splitCompleted split) .zero).1.board.connected.get? ⟨"a"⟩,
        ∃ p ∈ (r.splitsIn "m3").get? split.index, p.isBest = true ∧ p.isDriversBest = false := by
    decide +kernel
  rw [← hm] at hp
  have hflag := h e split ⟨"a"⟩ d .zero ⟨_, rfl⟩ hat r p hr hp hbest
  rw [hown] at hflag
  cases hflag

end Engine

end Pitwall
