import Pitwall.Proofs.Board.Bare
import Pitwall.Proofs.Board.Enumeration
import Pitwall.Proofs.Engine.Run

/-!
# Agreement — what a snapshot makes equal stays equal

Markers, feeds and the time of the latest event survive a snapshot. Nothing that is shown of
session and drivers is made from them: an input does to the rest of the board, and announces,
what it would without them (**`Engine.shown_react`**). So two engines that take up the same
snapshot agree from then on, whatever has happened to them before:
**`Engine.agree_after_snapshot`**.
-/

namespace Pitwall

/-- Two enumerations of the same input; no snapshot lists a driver at two places. -/
inductive Input.Same : Input → Input → Prop where
  /-- The same input, not a snapshot. -/
  | other {i : Input} (h : ∀ s now, i ≠ .event (.snapshot s) now) : Same i i
  /-- The same snapshot, at the same time. -/
  | snapshot {s t : Snapshot} {now : Instant} (same : s.Same t) (once : s.BindsOnce) :
      Same (.event (.snapshot s) now) (.event (.snapshot t) now)

namespace Engine

/-- The engine with nothing but the board, and that without markers. -/
def stripped (e : Engine) : Engine := { board := e.board.bare }

/-- What is shown after a step: the board without markers, and what the step tells. -/
def shown {α : Type} (p : Engine × α) : Board × α := (p.1.board.bare, p.2)

theorem shown_withCar {e : Engine} {car : CarId} {f g : Guid → Driver → Engine × Outcome}
    (h : ∀ key d, shown (f key d) = shown (g key d)) :
    shown (e.withCar car f) = shown (e.stripped.withCar car g) := by
  have hat : e.stripped.board.atCar? car = e.board.atCar? car := rfl
  rw [withCar, withCar, hat]
  cases e.board.atCar? car with
  | none => rfl
  | some p => exact h p.1 p.2

theorem shown_disconnect (e : Engine) (guid : Guid) :
    shown (e.disconnect guid) = shown (e.stripped.disconnect guid) := by
  have hget : e.stripped.board.connected.get? guid = e.board.connected.get? guid := rfl
  rw [disconnect, disconnect, hget]
  cases e.board.connected.get? guid with
  | none => rfl
  | some d =>
      by_cases hstint : (!d.isLoaded || d.totalLaps == 0) = true
      · simp only [if_pos hstint]
        exact Prod.ext (e.board.bare_purge guid) rfl
      · simp only [if_neg hstint]
        rfl

/-- What an event other than a snapshot does and tells does not come from markers, feeds or the
time of the latest event. -/
theorem shown_merge (e : Engine) (now : Instant) {ev : Event} (hev : ∀ s, ev ≠ .snapshot s) :
    shown (e.merge now ev) = shown (e.stripped.merge now ev) := by
  cases ev with
  | snapshot s => exact absurd rfl (hev s)
  | newConnection car => exact Prod.ext (e.board.bare_connect car now) rfl
  | connectionClosed car => exact e.shown_disconnect car.guid
  | clientLoaded car => exact shown_withCar fun _ _ => rfl
  | carUpdate t => exact shown_withCar fun _ _ => rfl
  | collision c => exact shown_withCar fun _ _ => rfl
  | lapCompleted l =>
      refine shown_withCar fun key d => Prod.ext ?_ rfl
      show Board.bare (List.foldl _ _ _) = Board.bare (List.foldl _ _ _)
      rw [Board.bare_foldl_raiseLaps, Board.bare_foldl_raiseLaps]
      rfl
  | splitCompleted s => exact shown_withCar fun _ _ => rfl
  | tyresChanged car => exact shown_withCar fun _ _ => rfl
  | chat m => rfl
  | newSession s => rfl
  | sessionInfo s => rfl
  | endSession file => rfl
  | serverError text => rfl
  | ignored tag => rfl

/-- What a snapshot makes of the board does not come from the board before. -/
theorem bare_resync (e : Engine) (s : Snapshot) (now : Instant) :
    (e.resync s now).1.board.bare = (Board.ofSnapshot s).bare :=
  Board.bare_takeOverMarkers _ _

/-- What a snapshot tells comes from the session before and the session it describes. -/
theorem notifications_resync (e : Engine) (s : Snapshot) (now : Instant) :
    (e.resync s now).2.notifications =
      (if e.board.tellsTrack (Board.ofSnapshot s) then
        [.trackChanged (Board.ofSnapshot s).session.track (Board.ofSnapshot s).session.layout]
      else []) ++
      (if e.board.tellsWeather (Board.ofSnapshot s) then
        [.weatherChanged (Board.ofSnapshot s).session.weather]
      else []) ++ [.snapshotApplied] := by
  rw [resync]
  simp only [Board.tellsTrack, Board.tellsWeather, Board.session_takeOverMarkers]
  rfl

/-- **NOTHING ELSE SHOWS**: what an input does to the board, markers aside, and what is announced
with it do not come from markers, feeds or the time of the latest event. -/
theorem shown_react (e : Engine) (i : Input) : shown (e.react i) = shown (e.stripped.react i) := by
  cases i with
  | event ev now =>
      by_cases hev : ∀ s, ev ≠ .snapshot s
      · -- the time that both have noted goes as well when the second one is stripped
        have h := shown_merge { e with lastAppliedAt := some now } now hev
        have h' := shown_merge { e.stripped with lastAppliedAt := some now } now hev
        have hsame : shown (e.apply ev now) = shown (e.stripped.apply ev now) := h.trans h'.symm
        have hboard : (shown (e.apply ev now)).1 = (shown (e.stripped.apply ev now)).1 := by
          rw [hsame]
        have htold : (shown (e.apply ev now)).2 = (shown (e.stripped.apply ev now)).2 := by
          rw [hsame]
        exact Prod.ext hboard (congrArg Outcome.notifications htold)
      · -- a snapshot replaces the board, and tells what differs from the session before
        obtain ⟨s, hs⟩ := Classical.not_forall.1 hev
        obtain rfl := Classical.not_not.1 hs
        refine Prod.ext ?_ ?_
        · exact (bare_resync _ s now).trans (bare_resync _ s now).symm
        · show (resync _ s now).2.notifications = (resync _ s now).2.notifications
          rw [notifications_resync, notifications_resync]
          rfl
  | tick t now =>
      have hinit : e.stripped.board.initialised = e.board.initialised := rfl
      show shown (e.tick t now) = shown (e.stripped.tick t now)
      simp only [tick]
      rw [hinit]
      cases e.board.initialised with
      | false => rfl
      | true => cases t <;> rfl
  | reset => rfl

/-- Two enumerations of the same input do the same. -/
theorem react_congr {i j : Input} (h : i.Same j) (e : Engine) : e.react i = e.react j := by
  cases h with
  | other => rfl
  | snapshot same once =>
      show ((resync _ _ _).1, (resync _ _ _).2.notifications) = _
      rw [resync, Board.ofSnapshot_congr same once]
      rfl

/-- Engines whose boards agree but for the markers agree through any further run. -/
theorem agree_run {e f : Engine} (h : e.board.bare = f.board.bare) {is js : List Input}
    (hij : List.Forall₂ Input.Same is js) :
    (e.run is).board.bare = (f.run js).board.bare ∧ e.announcements is = f.announcements js := by
  -- what a step shows of both engines is all that the next step comes from
  induction hij generalizing e f with
  | nil => exact ⟨h, rfl⟩
  | @cons i j is js hsame _ ih =>
      have hstripped : e.stripped = f.stripped := by
        rw [stripped, stripped, h]
      have hshown : shown (e.react i) = shown (f.react j) := by
        rw [shown_react e i, shown_react f j, hstripped, react_congr hsame]
      obtain ⟨hboard, htold⟩ := ih (congrArg Prod.fst hshown)
      refine ⟨hboard, ?_⟩
      have hstep : (shown (e.react i)).2 = (shown (f.react j)).2 := by
        rw [hshown]
      exact congrArg₂ List.cons hstep htold

/-- **RESYNCHRONISATION**: two engines that apply the same snapshot, whatever they have been
through, agree on everything but the markers after any further run, and announce the same in each
step of it. -/
theorem agree_after_snapshot (e f : Engine) {s t : Snapshot} (same : s.Same t) (once : s.BindsOnce)
    (now : Instant) {is js : List Input} (hij : List.Forall₂ Input.Same is js) :
    let e' := (e.react (.event (.snapshot s) now)).1
    let f' := (f.react (.event (.snapshot t) now)).1
    (e'.run is).board.bare = (f'.run js).board.bare ∧
      e'.announcements is = f'.announcements js := by
  intro e' f'
  refine agree_run ?_ hij
  have he : e'.board.bare = (Board.ofSnapshot s).bare := bare_resync _ s now
  have hf : f'.board.bare = (Board.ofSnapshot t).bare := bare_resync _ t now
  rw [he, hf, Board.ofSnapshot_congr same once]

/-- An engine that starts late and one that has seen a driver agree after a snapshot with two
places, whichever comes out first, and a driver who connects. -/
theorem agree_after_two_places :
    let s : Snapshot := { cars := ⟨[(3, ⟨"a"⟩), (4, ⟨"b"⟩)], by decide⟩ }
    let t : Snapshot := { cars := ⟨[(4, ⟨"b"⟩), (3, ⟨"a"⟩)], by decide⟩ }
    let car : CarInfo := { carId := 5, guid := ⟨"c"⟩, model := "m3" }
    let e : Engine := initial.run [.event (.newConnection { car with model := "z4" }) .zero]
    let e' := (e.react (.event (.snapshot s) .zero)).1
    let f' := (initial.react (.event (.snapshot t) .zero)).1
    let is : List Input := [.event (.newConnection car) .zero, .tick .standings .zero]
    s.Same t ∧ s.BindsOnce ∧ List.Forall₂ Input.Same is is ∧
      (e'.run is).board.bare = (f'.run is).board.bare ∧ e'.announcements is = f'.announcements is := by
  intro s t car e e' f' is
  have same : s.Same t := { Snapshot.Same.refl s with cars := List.Perm.swap _ _ _ }
  have once : s.BindsOnce := by decide
  have his : List.Forall₂ Input.Same is is :=
    .cons (.other fun _ _ h => nomatch h) (.cons (.other fun _ _ h => nomatch h) .nil)
  exact ⟨same, once, his, agree_after_snapshot e initial same once .zero his⟩

end Engine

end Pitwall
