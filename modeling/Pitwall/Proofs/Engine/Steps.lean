import Pitwall.Proofs.Board.Records
import Pitwall.Proofs.Engine.Interleaving

/-!
# Steps — all that an input can do to a board

**`Board.Step`** lists the ways in which one input can change the board, and
**`Engine.step_react`** says that there are no others. What holds of all boards that can be reached
is shown by going through the list once (**`Engine.board_induction`**); what an event
computes is of no matter there, only where it is put. What holds of single records need not even do
that: it is enough to say what becomes of one record (**`Board.Records.step`**).
-/

namespace Pitwall

namespace Board

/-- What an input can make of a board. -/
inductive Step (b : Board) : Input → Board → Prop where
  /-- Nothing happens to the board. -/
  | same (i : Input) : Step b i b
  /-- A snapshot takes its place, with the telemetry of the earlier markers. -/
  | resync (s : Snapshot) (now : Instant) :
      Step b (.event (.snapshot s) now) ((ofSnapshot s).takeOverMarkers b.markers)
  /-- Somebody connects. -/
  | connect (car : CarInfo) (now : Instant) :
      Step b (.event (.newConnection car) now) (b.connect car now)
  /-- A connected driver leaves without a usable stint. -/
  | purge {car : CarInfo} {d : Driver} (now : Instant) (hd : b.connected.get? car.guid = some d) :
      Step b (.event (.connectionClosed car) now) (b.purge car.guid)
  /-- A connected driver leaves and stays on file. -/
  | leave {car : CarInfo} {d : Driver} (now : Instant) (hd : b.connected.get? car.guid = some d) :
      Step b (.event (.connectionClosed car) now) ((b.remove car.guid).file d)
  /-- Something happens to one connected driver. -/
  | put (ev : Event) {car : CarId} {g : Guid} {d : Driver} (now : Instant)
      (hcar : ev.place? = some car) (hd : b.atCar? car = some (g, d)) :
      Step b (.event ev now) (b.put g (b.recordAfter now d ev) ev.marking?)
  /-- A connected driver completes a lap, and the leaderboard raises the laps of others. -/
  | lap {l : LapReport} {g : Guid} {d : Driver} (now : Instant)
      (hd : b.atCar? l.carId = some (g, d)) :
      Step b (.event (.lapCompleted l) now)
        (l.leaderboard.foldl raiseLaps (b.put g (d.completeLap l now) none))
  /-- The standings are sorted. -/
  | rank (now : Instant) :
      Step b (.tick .standings now) b.rankConnected.rankDisconnected
  /-- All is discarded. -/
  | reset : Step b .reset {}

/-- A record with one more lap is still that of its driver. -/
theorem guid_completeLap {b : Board} (h : b.GuidsOwn) {g : Guid} {d : Driver}
    (hd : b.connected.get? g = some d) (l : LapReport) (now : Instant) :
    (d.completeLap l now).guid = g :=
  (d.continues_completeLap l now trivial).guid.trans (h g d hd)

/-! ## Records -/

/-- The record of a driver to whom something happens is set. -/
theorem Records.put {b : Board} {P : Driver → Prop} (h : b.Records P) (g : Guid) {r : Driver}
    (hr : P r) (f : Option (Marker → Marker)) : (b.put g r f).Records P :=
  ⟨h.connected.modify fun _ _ => hr, h.disconnected⟩

/-- With an input, records of one kind become records of another kind, and only these are made. -/
structure Carries (b : Board) (i : Input) (P Q : Driver → Prop) : Prop where
  anyCar : Driver.AnyCar Q
  kept : ∀ d, P d → Q d
  listed : ∀ s now, i = .event (.snapshot s) now → s.Lists Q
  fresh : ∀ car now, Q (.ofCar car now)
  /-- The record of a driver who comes back, or connects again. -/
  joined : ∀ (d : Driver) (car : CarInfo) (connectedAt loadedAt lastSeen : Instant), Q d →
    Q { d.addSheet car with car, connectedAt, loadedAt, lastSeen }
  driven : ∀ ev now d, i = .event ev now → P d → Q (b.recordAfter now d ev)
  lapped : ∀ l now d, i = .event (.lapCompleted l) now → P d → Q (d.completeLap l now)
  raised : ∀ (d : Driver) (n : UInt32), n.toNat < UInt16.size → Q d → Q { d with totalLaps := n }

/-- What becomes of the records one by one becomes of all of them in a step. -/
theorem Records.step {b c : Board} {P Q : Driver → Prop} {i : Input} (h : b.Records P)
    (hi : b.Carries i P Q) (hstep : b.Step i c) : c.Records Q := by
  have hold := h.imp hi.kept
  cases hstep with
  | same => exact hold
  | resync s now =>
      exact (records_ofSnapshot hi.anyCar (hi.listed s now rfl)).takeOverMarkers _
  | connect car now =>
      refine hold.connect hi.anyCar (joining_cases b (hi.fresh car now) ?back ?again)
      case back => exact fun m r hr => hi.joined r car now .zero now (hold.disconnected _ r hr)
      case again => exact fun d hd => hi.joined d car _ _ now (hold.connected _ d hd)
  | purge now hd => exact hold.purge hi.anyCar _
  | leave now hd => exact hold.leave hi.anyCar hd
  | put ev now hcar hd =>
      obtain ⟨-, hget⟩ := atCar?_eq_some_iff.1 hd
      exact hold.put _ (hi.driven ev now _ rfl (h.connected _ _ hget)) _
  | @lap l g d now hd =>
      obtain ⟨-, hget⟩ := atCar?_eq_some_iff.1 hd
      exact (hold.put g (hi.lapped l now d rfl (h.connected g d hget)) none).foldl_raiseLaps
        hi.raised _
  | rank now => exact hold.rank
  | reset => exact .empty

end Board

namespace Engine

/-- What is done about the driver in a place is a step if it is one for a connected driver. -/
theorem step_withCar {e : Engine} {i : Input} {car : CarId} {f : Guid → Driver → Engine × Outcome}
    (hf : ∀ g d, e.board.atCar? car = some (g, d) → e.board.Step i (f g d).1.board) :
    e.board.Step i (e.withCar car f).1.board :=
  withCar_induction (P := fun p => e.board.Step i p.1.board) (.same i) hf

theorem step_disconnect (e : Engine) (car : CarInfo) (now : Instant) :
    e.board.Step (.event (.connectionClosed car) now) (e.disconnect car.guid).1.board :=
  disconnect_induction (P := fun p => e.board.Step _ p.1.board) (.same _)
    (fun _ hd => .purge now hd) fun _ hd => .leave now hd

theorem step_merge (e : Engine) (now : Instant) (ev : Event) :
    e.board.Step (.event ev now) (e.merge now ev).1.board := by
  cases ev with
  | snapshot s => exact .resync s now
  | newConnection car => exact .connect car now
  | connectionClosed car => exact e.step_disconnect car now
  | lapCompleted l => exact step_withCar fun g d hd => .lap now hd
  | clientLoaded car => exact step_withCar fun g d hd => .put (.clientLoaded car) now rfl hd
  | carUpdate t => exact step_withCar fun g d hd => .put (.carUpdate t) now rfl hd
  | collision c => exact step_withCar fun g d hd => .put (.collision c) now rfl hd
  | splitCompleted s => exact step_withCar fun g d hd => .put (.splitCompleted s) now rfl hd
  | tyresChanged car => exact step_withCar fun g d hd => .put (.tyresChanged car) now rfl hd
  | chat m => exact .same _
  | newSession s => exact .same _
  | sessionInfo s => exact .same _
  | endSession file => exact .same _
  | serverError text => exact .same _
  | ignored tag => exact .same _

/-- **EVERY INPUT TAKES A STEP** of the list. -/
theorem step_react (e : Engine) (i : Input) : e.board.Step i (e.react i).1.board := by
  cases i with
  | event ev now => exact step_merge { e with lastAppliedAt := some now } now ev
  | tick t now =>
      show e.board.Step _ (e.tick t now).1.board
      simp only [tick]
      split
      · exact .same _
      · cases t with
        | progress => exact .same _
        | standings => exact .rank now
        | feeds => exact .same _
  | reset => exact .reset

/-- What holds of the empty board and is kept by every step holds of every board in a run whose
inputs are of a kind. The steps start from boards on which records and files fit together. -/
theorem board_induction {I : Board → Prop} {p : Input → Prop} (hempty : I {})
    (hstep : ∀ {b c : Board} {i : Input}, b.Filed → p i → b.Step i c → I b → I c)
    {inputs : List Input} (hall : ∀ i ∈ inputs, p i) : I (initial.run inputs).board := by
  refine (run_induction (p := p) (I := fun e => e.board.Filed ∧ I e.board) ?_
    ⟨Board.filed_empty, hempty⟩ hall).2
  rintro e i hi ⟨hfiled, h⟩
  exact ⟨filed_react hfiled i, hstep hfiled hi (e.step_react i) h⟩

end Engine

end Pitwall
