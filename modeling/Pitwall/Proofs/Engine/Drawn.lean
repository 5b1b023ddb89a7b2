import Mathlib.Data.List.Induction
import Pitwall.Proofs.Engine.Belonging

/-!
# Drawn — which markers are active

A marker becomes active when its driver finishes loading, and a snapshot gives active markers to
drivers who have loaded. So the drivers whose markers are drawn have loaded
(**`Board.DrawnLoaded`**), with two exceptions (**`Board.DrawsUnloaded`**): a driver finishes
loading at a time that stands for "never", or a snapshot takes over an active marker, as it is, for a
driver of whom it says that loading has not finished. **`Engine.drawnLoaded_iff`** says that there is
no third, and **`Engine.drawn_after_reload`** that the second does occur.
-/

namespace Pitwall

namespace Board

/-- Whose marker is active has loaded. -/
def DrawnLoaded (b : Board) : Prop :=
  ∀ g m, b.markers.get? g = some m → m.active = true →
    ∃ d, b.connected.get? g = some d ∧ d.isLoaded = true

/-- The input makes an active marker belong to a driver who has not loaded. -/
def DrawsUnloaded (b : Board) : Input → Prop
  | .event (.snapshot s) _ =>
    ∃ g d m, s.connected.bind (·.drivers.get? g) = some d ∧ d.isLoaded = false ∧
      b.markers.get? g = some m ∧ m.active = true
  | .event (.clientLoaded car) now =>
    now.isNever = true ∧ ∃ g d, b.atCar? car = some (g, d) ∧ d.isLoaded = false
  | _ => False

variable {b c : Board}

theorem DrawnLoaded.congr (h : b.DrawnLoaded) (hmarkers : c.markers = b.markers)
    (hconn : ∀ g d, b.connected.get? g = some d →
      ∃ e, c.connected.get? g = some e ∧ e.loadedAt = d.loadedAt) : c.DrawnLoaded := by
  intro g m hm hactive
  rw [hmarkers] at hm
  obtain ⟨d, hd, hload⟩ := h g m hm hactive
  obtain ⟨e, he, hsame⟩ := hconn g d hd
  refine ⟨e, he, ?_⟩
  rw [Driver.isLoaded, hsame]
  exact hload

theorem DrawnLoaded.remove (h : b.DrawnLoaded) (guid : Guid) : (b.remove guid).DrawnLoaded := by
  intro g m hm hactive
  rw [get?_markers_remove] at hm
  split at hm
  · cases hm
  · next hne =>
    obtain ⟨d, hd, hload⟩ := h g m hm hactive
    refine ⟨d, ?_, hload⟩
    show (b.connected.erase guid).get? g = some d
    rw [Keyed.get?_erase, if_neg hne]
    exact hd

/-- The marker of a driver who has just connected is not drawn. -/
theorem DrawnLoaded.connect (h : b.DrawnLoaded) (car : CarInfo) (now : Instant) :
    (b.connect car now).DrawnLoaded := by
  intro g m hm hactive
  rw [markers_connect, Table.get?_insert] at hm
  split at hm
  · obtain rfl := Option.some.inj hm
    cases hactive
  · next hne =>
    obtain ⟨d, hd, hload⟩ := h g m hm hactive
    refine ⟨d, ?_, hload⟩
    rw [get?_connected_connect, if_neg (Ne.symm hne)]
    exact hd

/-- A driver whose marker an event makes active, or leaves active, has loaded afterwards. -/
theorem DrawnLoaded.put (h : b.DrawnLoaded) {g : Guid} {d r : Driver}
    (hd : b.connected.get? g = some d) (hr : r.guid = g) {f : Option (Marker → Marker)}
    (hkeep : d.isLoaded = true → r.isLoaded = true)
    (hf : ∀ k, f = some k → ∀ m : Marker, (k m).active = true →
      m.active = true ∨ r.isLoaded = true) : (b.put g r f).DrawnLoaded := by
  intro a m hm hactive
  rw [get?_markers_put b hr] at hm
  rw [get?_connected_put]
  split at hm
  · next ha =>
    subst ha
    rw [if_pos rfl, hd]
    refine ⟨r, rfl, ?_⟩
    -- an active marker that was there before says that the driver had loaded already
    have hbefore : ∀ old, b.markers.get? g = some old → old.active = true → r.isLoaded = true := by
      intro old hold hdrawn
      obtain ⟨e, he, hload⟩ := h g old hold hdrawn
      obtain rfl : d = e := Option.some.inj (hd.symm.trans he)
      exact hkeep hload
    cases f with
    | none => exact hbefore m hm hactive
    | some k =>
        obtain rfl := Option.some.inj hm
        rcases hf k rfl _ hactive with hdrawn | hload
        · cases hold : b.markers.get? g with
          | none =>
              rw [hold] at hdrawn
              cases hdrawn
          | some old =>
              rw [hold] at hdrawn
              exact hbefore old hold hdrawn
        · exact hload
  · next ha =>
    rw [if_neg (Ne.symm ha)]
    exact h a m hm hactive

/-- What happens on the track does not undo loading. -/
theorem isLoaded_recordAfter (b : Board) (now : Instant) {d : Driver} (hd : d.isLoaded = true)
    (ev : Event) : (b.recordAfter now d ev).isLoaded = true := by
  cases ev with
  | clientLoaded car =>
      show (d.load now).isLoaded = true
      rw [Driver.load, if_pos hd]
      exact hd
  | _ => exact hd

/-- Of the earlier markers a snapshot may take over one that is active. -/
theorem drawnLoaded_resync {s : Snapshot} {now : Instant}
    (hs : ¬ b.DrawsUnloaded (.event (.snapshot s) now)) :
    ((ofSnapshot s).takeOverMarkers b.markers).DrawnLoaded := by
  intro g m hm hactive
  rw [get?_markers_resync, Option.bind_eq_some_iff] at hm
  obtain ⟨d, hd, hm⟩ := hm
  refine ⟨d, by rw [connected_takeOverMarkers]; exact hd, ?_⟩
  by_cases hload : d.isLoaded = true
  · exact hload
  · rw [if_neg hload] at hm
    rw [get?_connected_ofSnapshot, Option.map_eq_some_iff] at hd
    obtain ⟨e, he, rfl⟩ := hd
    exact absurd ⟨g, e, m, he, Bool.eq_false_iff.2 hload, hm, hactive⟩ hs

/-- **ONE STEP KEEPS DRAWN DRIVERS LOADED**, but for the two exceptions. -/
theorem DrawnLoaded.step (h : b.DrawnLoaded) (hown : b.GuidsOwn) {i : Input}
    (hi : ¬ b.DrawsUnloaded i) (hstep : b.Step i c) : c.DrawnLoaded := by
  cases hstep with
  | same => exact h
  | resync s now => exact drawnLoaded_resync hi
  | connect car now => exact h.connect car now
  | purge now hd => exact (h.remove _).congr rfl fun g d hd => ⟨d, hd, rfl⟩
  | leave now hd => exact (h.remove _).congr rfl fun g d hd => ⟨d, hd, rfl⟩
  | @put ev car g d now hcar hd =>
      obtain ⟨-, hget⟩ := atCar?_eq_some_iff.1 hd
      refine h.put hget (guid_recordAfter hown hget now ev)
        (fun hload => b.isLoaded_recordAfter now hload ev) ?_
      intro k hk m hactive
      cases ev with
      | clientLoaded place =>
          refine Or.inr ?_
          cases hcar
          show (d.load now).isLoaded = true
          rw [Driver.load]
          split
          · next hload => exact hload
          · next hload =>
            -- this is where the time of the event matters
            by_cases hnever : now.isNever = true
            · exact absurd ⟨hnever, g, d, hd, Bool.eq_false_iff.2 hload⟩ hi
            · rw [Driver.isLoaded, Bool.not_eq_true']
              exact Bool.eq_false_iff.2 hnever
      | carUpdate t =>
          cases hk
          exact Or.inl hactive
      | _ => cases hk
  | @lap l g d now hd =>
      obtain ⟨-, hget⟩ := atCar?_eq_some_iff.1 hd
      have hput : (b.put g (d.completeLap l now) none).DrawnLoaded := by
        refine h.put hget (guid_completeLap hown hget l now) id ?_
        intro k hk
        cases hk
      refine hput.congr (by rw [foldl_raiseLaps_eq]) ?_
      intro a e he
      obtain ⟨n, -, hraised⟩ := (b.put g (d.completeLap l now) none).get?_foldl_raiseLaps
        l.leaderboard a
      rw [hraised, he]
      exact ⟨_, rfl, rfl⟩
  | rank now =>
      refine h.congr rfl fun g d hd => ⟨d, ?_, rfl⟩
      exact (Keyed.get?_arrange _ _ g).trans hd
  | reset =>
      intro g m hm
      cases hm

end Board

namespace Engine

/-- The exceptions are exceptions indeed. -/
theorem not_drawnLoaded_react {e : Engine} (hown : e.board.GuidsOwn) {i : Input}
    (hi : e.board.DrawsUnloaded i) : ¬ (e.react i).1.board.DrawnLoaded := by
  intro h
  cases i with
  | event ev now =>
      cases ev with
      | snapshot s =>
          obtain ⟨g, d, m, hd, hload, hm, hactive⟩ := hi
          have hconn : (Board.ofSnapshot s).connected.get? g = some (d.withGuid g) := by
            rw [Board.get?_connected_ofSnapshot, hd]
            rfl
          have hloaded : (d.withGuid g).isLoaded = false := hload
          have hmarker : ((Board.ofSnapshot s).takeOverMarkers e.board.markers).markers.get? g =
              some m := by
            rw [Board.get?_markers_resync, hconn, Option.bind_some, hloaded]
            exact hm
          obtain ⟨r, hr, hdrawn⟩ := h g m hmarker hactive
          have hrecord : (Board.ofSnapshot s).connected.get? g = some r := by
            rw [← Board.connected_takeOverMarkers (Board.ofSnapshot s) e.board.markers]
            exact hr
          obtain rfl := Option.some.inj (hconn.symm.trans hrecord)
          rw [hloaded] at hdrawn
          cases hdrawn
      | clientLoaded car =>
          obtain ⟨hnever, g, d, hd, hload⟩ := hi
          obtain ⟨-, hget⟩ := Board.atCar?_eq_some_iff.1 hd
          have hcar : Event.place? (.clientLoaded car) = some car := rfl
          have hboard : (e.react (.event (.clientLoaded car) now)).1.board =
              e.board.put g (d.load now) (some fun m => { m with active := true }) :=
            (merge_of_place? { e with lastAppliedAt := some now } now hcar hd).1
          rw [hboard] at h
          have hgoes : d.Continues (d.load now) False := d.continues_load now
          have hguid : (d.load now).guid = g := hgoes.guid.trans (hown g d hget)
          have hstill : (d.load now).isLoaded = false := by
            rw [Driver.load, if_neg (Bool.eq_false_iff.1 hload), Driver.isLoaded, hnever]
            rfl
          -- the driver has an active marker now
          have hmarker := e.board.get?_markers_put hguid (some fun m => { m with active := true }) g
          rw [if_pos rfl] at hmarker
          obtain ⟨r, hr, hdrawn⟩ := h g _ hmarker rfl
          rw [Board.get?_connected_put, if_pos rfl, hget] at hr
          obtain rfl : d.load now = r := Option.some.inj hr
          rw [hstill] at hdrawn
          cases hdrawn
      | _ => cases hi
  | tick t now => cases hi
  | reset => cases hi

/-- **WHO IS DRAWN HAS LOADED, WITH TWO EXCEPTIONS**: in all states that a run passes through, every
active marker belongs to a connected driver who has loaded, exactly if at no point of the run a
driver finishes loading at a time that stands for "never" and no snapshot lists as not loaded a
driver whose marker is active. -/
theorem drawnLoaded_iff (inputs : List Input) :
    (∀ is, is <+: inputs → (initial.run is).board.DrawnLoaded) ↔
      ∀ is i, is ++ [i] <+: inputs → ¬ (initial.run is).board.DrawsUnloaded i := by
  have hown : ∀ is, (initial.run is).board.GuidsOwn := fun is =>
    (Reachable.filed ⟨is, rfl⟩).own
  constructor
  · intro h is i his hbad
    refine not_drawnLoaded_react (hown is) hbad ?_
    rw [← run_snoc]
    exact h _ his
  · intro h is his
    -- a run is followed to its end, one input after the other
    induction is using List.reverseRecOn with
    | nil => exact fun g m hm => nomatch hm
    | append_singleton is i ih =>
        rw [run_snoc]
        have hbefore : (initial.run is).board.DrawnLoaded :=
          ih ((List.prefix_append is [i]).trans his)
        exact hbefore.step (hown is) (h is i his) ((initial.run is).step_react i)

/-- A snapshot has a driver who has loaded, and the next one says of the same driver that loading
has not finished, as after a change of session: the marker is taken over and stays active. -/
theorem drawn_after_reload :
    ¬ ∀ inputs : List Input, (∀ ev now, .event ev now ∈ inputs → Instant.zero < now) →
      (initial.run inputs).board.DrawnLoaded := by
  intro h
  let noon : Instant := ⟨63000000000, 0, by decide, by decide, by decide, by decide⟩
  let ann : CarInfo := { carId := 1, guid := ⟨"a"⟩, model := "m3" }
  let listing (loadedAt : Instant) : Event :=
    .snapshot
      { connected := some
          { drivers := ⟨[(⟨"a"⟩, { car := ann, loadedAt })], List.nodup_singleton _⟩ } }
  let inputs : List Input := [.event (listing noon) noon, .event (listing .zero) noon]
  have htimes : ∀ ev now, .event ev now ∈ inputs → Instant.zero < now := by
    intro ev now hmem
    rcases List.mem_cons.1 hmem with heq | hmem
    · cases heq
      decide
    · cases List.mem_singleton.1 hmem
      decide
  let marker : Marker := Board.snapshotMarker { car := ann, loadedAt := noon }
  have hmarker : (initial.run inputs).board.markers.get? ⟨"a"⟩ = some marker := by decide +kernel
  obtain ⟨d, hd, hload⟩ := h inputs htimes ⟨"a"⟩ marker hmarker rfl
  have hrecord : (initial.run inputs).board.connected.get? ⟨"a"⟩ = some { car := ann } := by
    decide +kernel
  obtain rfl := Option.some.inj (hrecord.symm.trans hd)
  cases hload

end Engine

end Pitwall
