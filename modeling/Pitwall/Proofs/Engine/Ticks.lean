import Mathlib.Data.List.Basic
import Mathlib.Data.List.Induction
import Pitwall.Proofs.Board.SameRecords
import Pitwall.Proofs.Engine.Run

/-!
# Ticks — what periodic jobs do to records

The periodic jobs touch no record; sorting the standings permutes the display orders and nothing
else (**`Engine.sameRecords_tick`**). Events look records up by their keys, so they do not see the
orders (**`Engine.sameRecords_merge`**), with one exception: a driver who comes back in a car that
is not on file picks up the record that stands last. So two runs that meet with the same events hold
the same records throughout exactly if whoever comes back arrives with the same record:
**`Engine.recordsAgree_iff_arrivalsAgree`**. Where the files of a driver who comes back leave no
choice, nothing depends on the jobs: **`Engine.sameRecords_of_noChoice`**. Otherwise it may:
**`Engine.records_depend_on_ticks`**.
-/

namespace Pitwall

/-- Whether the input is a periodic job. -/
def Input.isTick : Input → Bool
  | .tick _ _ => true
  | _ => false

/-- What is left of a run without the periodic jobs. -/
def withoutTicks (inputs : List Input) : List Input := inputs.filter (fun i => !i.isTick)

namespace Engine

/-! ## Steps -/

/-- A periodic job leaves the records as they are. -/
theorem sameRecords_tick (e : Engine) (t : Tick) (now : Instant) :
    (e.tick t now).1.board.SameRecords e.board := by
  simp only [tick]
  split
  · exact .refl _
  · cases t with
    | progress => exact .refl _
    | standings =>
        refine ⟨?_, ?_, rfl⟩
        · intro g
          exact Keyed.get?_arrange _ _ g
        · intro k
          exact Keyed.get?_arrange _ _ k
    | feeds => exact .refl _

variable {e f : Engine}

/-- What is done for the driver in a car is done on both boards, or on neither. -/
theorem sameRecords_withCar (h : e.board.SameRecords f.board) {car : CarId}
    {F G : Guid → Driver → Engine × Outcome}
    (hFG : ∀ key d, (F key d).1.board.SameRecords (G key d).1.board) :
    (e.withCar car F).1.board.SameRecords (f.withCar car G).1.board := by
  rw [withCar, withCar, h.atCar?_eq]
  cases f.board.atCar? car with
  | none => exact h
  | some p => exact hFG p.1 p.2

theorem sameRecords_disconnect (h : e.board.SameRecords f.board) (g : Guid) :
    (e.disconnect g).1.board.SameRecords (f.disconnect g).1.board := by
  rw [disconnect, disconnect, h.connected g]
  cases f.board.connected.get? g with
  | none => exact h
  | some d =>
      by_cases hstint : (!d.isLoaded || d.totalLaps == 0) = true
      · simp only [if_pos hstint]
        exact h.purge g
      · simp only [if_neg hstint]
        exact (h.remove g).fileAll _

/-- Both engines arrive at the same record if a driver comes back with an input. -/
def ArriveAlike (e f : Engine) (i : Input) : Prop :=
  ∀ car now, i = .event (.newConnection car) now → e.board.connected.get? car.guid = none →
    e.board.arriving car now = f.board.arriving car now

/-- **AN EVENT** does the same to the same records, unless a driver comes back to different ones. -/
theorem sameRecords_merge (h : e.board.SameRecords f.board) (now : Instant) (ev : Event)
    (harrive : ArriveAlike e f (.event ev now)) :
    (e.merge now ev).1.board.SameRecords (f.merge now ev).1.board := by
  cases ev with
  | snapshot s =>
      -- of the boards before, only the markers are looked at
      show ((Board.ofSnapshot s).takeOverMarkers e.board.markers).SameRecords
        ((Board.ofSnapshot s).takeOverMarkers f.board.markers)
      rw [h.markers_eq]
      exact .refl _
  | newConnection car => exact h.connect (harrive car now rfl)
  | connectionClosed car => exact sameRecords_disconnect h car.guid
  | clientLoaded car =>
      refine sameRecords_withCar h fun key d => ?_
      exact (h.setDriver key _).updateMarker _ (fun m => { m with active := true })
  | carUpdate t =>
      refine sameRecords_withCar h fun key d => ?_
      exact (h.setDriver key _).updateMarker _ (driveMarker t)
  | collision c =>
      refine sameRecords_withCar h fun key d => ?_
      rw [h.driverByCar?_eq]
      exact h.setDriver key _
  | lapCompleted l =>
      refine sameRecords_withCar h fun key d => ?_
      exact (h.setDriver key _).foldl_raiseLaps l.leaderboard
  | splitCompleted s =>
      refine sameRecords_withCar h fun key d => ?_
      rw [h.bestSplit?_eq]
      exact h.setDriver key _
  | tyresChanged car =>
      refine sameRecords_withCar h fun key d => ?_
      exact h.setDriver key _
  | chat m => exact h
  | newSession s => exact h
  | sessionInfo s => exact h
  | endSession file => exact h
  | serverError text => exact h
  | ignored tag => exact h

theorem sameRecords_react (h : e.board.SameRecords f.board) {i : Input}
    (harrive : ArriveAlike e f i) : (e.react i).1.board.SameRecords (f.react i).1.board := by
  cases i with
  | event ev now =>
      exact sameRecords_merge (e := { e with lastAppliedAt := some now })
        (f := { f with lastAppliedAt := some now }) h now ev harrive
  | tick t now =>
      exact ((e.sameRecords_tick t now).trans h).trans (f.sameRecords_tick t now).symm
  | reset => exact .refl _

/-- Where the records are the same after a driver has come back, the driver came back to the same
record. -/
theorem arriveAlike_of_sameRecords {i : Input}
    (h : (e.react i).1.board.SameRecords (f.react i).1.board)
    (hconn : e.board.connected.Agrees f.board.connected) : ArriveAlike e f i := by
  rintro car now rfl hg
  have hjoined := h.connected car.guid
  have hget : (e.board.connect car now).connected.get? car.guid =
      (f.board.connect car now).connected.get? car.guid := hjoined
  rw [Board.get?_connected_connect, Board.get?_connected_connect, if_pos rfl, if_pos rfl,
    Board.joining, Board.joining, ← hconn, hg] at hget
  exact Option.some.inj hget

/-! ## Runs -/

theorem withoutTicks_append (is js : List Input) :
    withoutTicks (is ++ js) = withoutTicks is ++ withoutTicks js :=
  List.filter_append ..

/-- Periodic jobs at the end of a run leave the records as they are. -/
theorem sameRecords_run_ticks (e : Engine) {ticks : List Input} (h : withoutTicks ticks = []) :
    (e.run ticks).board.SameRecords e.board := by
  induction ticks generalizing e with
  | nil => exact .refl _
  | cons i ticks ih =>
      rw [withoutTicks, List.filter_cons] at h
      cases i with
      | tick t now => exact (ih _ h).trans (e.sameRecords_tick t now)
      | event ev now => cases h
      | reset => cases h

/-- The runs hold the same records whenever they have met with the same events. -/
def RecordsAgree (is js : List Input) : Prop :=
  ∀ is' js', is' <+: is → js' <+: js → withoutTicks is' = withoutTicks js' →
    (initial.run is').board.SameRecords (initial.run js').board

/-- Whoever comes back in the runs arrives with the same record in both. -/
def ArrivalsAgree (is js : List Input) : Prop :=
  ∀ is' js' i, is' ++ [i] <+: is → js' ++ [i] <+: js → withoutTicks is' = withoutTicks js' →
    ArriveAlike (initial.run is') (initial.run js') i

/-- Behind the last event that a run meets with, there are periodic jobs only. -/
theorem exists_last_event {is : List Input} {events : List Input} {i : Input}
    (h : withoutTicks is = events ++ [i]) :
    ∃ is' ticks, is = is' ++ [i] ++ ticks ∧ withoutTicks is' = events ∧
      withoutTicks ticks = [] := by
  obtain ⟨is₁, is₂, rfl, hevents, hlast⟩ := List.filter_eq_append_iff.1 h
  obtain ⟨is₃, ticks, rfl, hbefore, -, hticks⟩ := List.filter_eq_cons_iff.1 hlast
  refine ⟨is₁ ++ is₃, ticks, by simp, ?_, hticks⟩
  have hnone : withoutTicks is₃ = [] := List.filter_eq_nil_iff.2 hbefore
  rw [withoutTicks_append, hnone, List.append_nil]
  exact hevents

/-- Two runs hold the same records throughout if, whenever they did so far, whoever comes back next
arrives with the same record in both. -/
theorem recordsAgree_of_step {is js : List Input}
    (h : ∀ is' js' i, is' ++ [i] <+: is → js' ++ [i] <+: js → withoutTicks is' = withoutTicks js' →
      (initial.run is').board.SameRecords (initial.run js').board →
      ArriveAlike (initial.run is') (initial.run js') i) : RecordsAgree is js := by
  intro is' js' his hjs hsame
  -- the induction is on the events met with so far; jobs behind the last one do not matter
  generalize hevents : withoutTicks is' = events at hsame
  induction events using List.reverseRecOn generalizing is' js' with
  | nil =>
      exact (sameRecords_run_ticks _ hevents).trans (sameRecords_run_ticks _ hsame.symm).symm
  | append_singleton events i ih =>
      obtain ⟨is₁, ticks, rfl, his₁, hticks⟩ := exists_last_event hevents
      obtain ⟨js₁, ticks', rfl, hjs₁, hticks'⟩ := exists_last_event hsame.symm
      have his' : is₁ ++ [i] <+: is := (List.prefix_append _ _).trans his
      have hjs' : js₁ ++ [i] <+: js := (List.prefix_append _ _).trans hjs
      have hbefore := ih is₁ js₁ ((List.prefix_append _ _).trans his')
        ((List.prefix_append _ _).trans hjs') his₁ hjs₁.symm
      have hstep := sameRecords_react hbefore
        (h is₁ js₁ i his' hjs' (his₁.trans hjs₁.symm) hbefore)
      rw [← run_snoc, ← run_snoc] at hstep
      rw [run_append _ (is₁ ++ [i]), run_append _ (js₁ ++ [i])]
      exact ((sameRecords_run_ticks _ hticks).trans hstep).trans
        (sameRecords_run_ticks _ hticks').symm

/-- **TICKS AND RECORDS**: however periodic jobs are put between the same events, two runs hold the
same records, places and markers throughout exactly if whoever comes back arrives with the same
record in both. -/
theorem recordsAgree_iff_arrivalsAgree (is js : List Input) :
    RecordsAgree is js ↔ ArrivalsAgree is js := by
  constructor
  · intro h is' js' i his hjs hsame
    have hnext : withoutTicks (is' ++ [i]) = withoutTicks (js' ++ [i]) := by
      rw [withoutTicks_append, withoutTicks_append, hsame]
    have hbefore := h is' js' ((List.prefix_append _ _).trans his)
      ((List.prefix_append _ _).trans hjs) hsame
    have hafter := h _ _ his hjs hnext
    rw [run_snoc, run_snoc] at hafter
    exact arriveAlike_of_sameRecords hafter hbefore.connected
  · intro h
    exact recordsAgree_of_step fun is' js' i his hjs hsame _ => h is' js' i his hjs hsame

/-- Where the files of a driver who comes back leave no choice, the periodic jobs have no say in
what the records are. -/
theorem sameRecords_of_noChoice {is js : List Input} (hsame : withoutTicks is = withoutTicks js)
    (hsure : ∀ is' car now, is' ++ [.event (.newConnection car) now] <+: is →
      (initial.run is').board.connected.get? car.guid = none →
      (initial.run is').board.LeavesNoChoice car) :
    (initial.run is).board.SameRecords (initial.run js).board := by
  have hagree : RecordsAgree is js := by
    refine recordsAgree_of_step fun is' js' i his _ _ hbefore => ?_
    rintro car now rfl hg
    exact hbefore.arriving_eq (hsure is' car now his hg) now
  exact hagree is js (List.prefix_refl _) (List.prefix_refl _) hsame

/-- A race in which a driver sits in two cars, drives a lap in the first one again and leaves. -/
def raceInTwoCars : List Input :=
  let car : CarInfo := { carId := 1, driverName := "Ann", guid := ⟨"a"⟩, model := "m3" }
  [.event (.snapshot { session := { kind := .race } }) .zero,
   .event (.newConnection car) .zero,
   .event (.newConnection { car with model := "z4" }) .zero,
   .event (.newConnection car) .zero,
   .event (.lapCompleted { carId := 1, millis := 80000 }) .zero,
   .event (.connectionClosed car) .zero]

/-- The driver comes back in a third car. -/
def returnInThirdCar : Input :=
  .event (.newConnection { carId := 1, driverName := "Ann", guid := ⟨"a"⟩, model := "458" }) .zero

/-- Sorting two entries that stand the wrong way round swaps them. -/
theorem sortedKeys_of_gt {κ : Type} {order : κ × Driver → κ × Driver → Ordering}
    {entries : List (κ × Driver)} (htwo : entries.length = 2)
    (h : entries.Pairwise (fun a b => order a b = .gt)) :
    sortedKeys order entries = (entries.map Prod.fst).reverse := by
  obtain ⟨a, b, rfl⟩ := List.length_eq_two.1 htwo
  have hab : order a b = .gt := List.rel_of_pairwise_cons h (List.mem_singleton_self b)
  have hmerge : [a, b].mergeSort (fun a b => order a b != .gt) = [b, a] := by
    simp [List.mergeSort, List.MergeSort.Internal.splitInTwo, hab]
  rw [sortedKeys, hmerge]
  rfl

/-- After that race, sorting the standings swaps the files of the two cars. -/
theorem rank_raceInTwoCars :
    let b := (initial.run raceInTwoCars).board
    (initial.run (raceInTwoCars ++ [.tick .standings .zero])).board =
      { b with
        connected := b.connected.arrange []
        disconnected := b.disconnected.arrange b.disconnected.keys.reverse } := by
  intro b
  have hnobody : standing b.session.kind b.connected = [] := by
    have hempty : b.connected.entries = [] := by decide +kernel
    have hrace : b.session.kind = .race := by decide +kernel
    simp [standing, hrace, sortedKeys, hempty]
  have hleft : leftStanding b.session.kind b.disconnected = b.disconnected.keys.reverse :=
    sortedKeys_of_gt (by decide +kernel) (by decide +kernel)
  have hready : b.initialised = true := by decide +kernel
  have hjob : ((initial.run raceInTwoCars).tick .standings .zero).1.board =
      b.rankConnected.rankDisconnected := by
    rw [tick, if_neg (by simp [b, hready])]
    rfl
  rw [run_snoc]
  calc ((initial.run raceInTwoCars).tick .standings .zero).1.board
      = b.rankConnected.rankDisconnected := hjob
    _ = { b with
          connected := b.connected.arrange (standing b.session.kind b.connected)
          disconnected :=
            b.disconnected.arrange (leftStanding b.session.kind b.disconnected) } := rfl
    _ = _ := by rw [hnobody, hleft]

/-- **JOBS THAT MATTER**: the driver who left has a file with the lap and, from before the lap, one
for the second car. The file of the lap stands last until the standings are sorted, so what the
driver comes back with depends on whether the job was due in between. -/
theorem records_depend_on_ticks :
    ¬ ∀ is js : List Input, (∀ i ∈ is ++ js, i ≠ .reset) → withoutTicks is = withoutTicks js →
      (initial.run is).board.connected.Agrees (initial.run js).board.connected ∧
      (initial.run is).board.disconnected.Agrees (initial.run js).board.disconnected ∧
      (initial.run is).board.cars = (initial.run js).board.cars := by
  intro h
  have hagree := (h (raceInTwoCars ++ [returnInThirdCar])
    (raceInTwoCars ++ [.tick .standings .zero] ++ [returnInThirdCar])
    (by simp [raceInTwoCars, returnInThirdCar]) rfl).1 ⟨"a"⟩
  have hlaps := congrArg (Option.map Driver.totalLaps) hagree
  have hreturn (e : Engine) : (e.react returnInThirdCar).1.board.connected.get? ⟨"a"⟩ =
      some (e.board.joining { carId := 1, driverName := "Ann", guid := ⟨"a"⟩, model := "458" }
        .zero) := Board.get?_connected_connect ..
  rw [run_snoc, run_snoc, hreturn, hreturn, rank_raceInTwoCars] at hlaps
  exact absurd hlaps (by decide +kernel)

end Engine

end Pitwall
