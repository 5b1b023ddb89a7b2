import Pitwall.Proofs.Engine.Interleaving

/-!
# Confined — an event on the track touches its own driver only

An event on the track sets the record and the marker of one driver (**`Board.confinedTo_put`**). Of
the others only laps may change: the leaderboard that comes with a completed lap raises them
(**`Board.ConfinedTo.raiseLaps`**). Everything else on the board stays as it is, and of the driver's
own record all that is not about the car driven now: **`Engine.confinedTo_apply`**.
-/

namespace Pitwall

namespace Board

/-- What happens to one driver leaves the rest of the board alone. -/
structure ConfinedTo (b c : Board) (g : Guid) (lap : Prop) : Prop where
  /-- Only connected records and markers change: session, track, files and places stay. -/
  rest : { c with connected := b.connected, markers := b.markers } = b
  /-- The same drivers are connected, in the same order. -/
  order : c.connected.keys = b.connected.keys
  /-- The records of the other drivers stay, but for laps that a completed lap may raise. -/
  others : ∀ h d, h ≠ g → b.connected.get? h = some d →
    ∃ n, c.connected.get? h = some { d with totalLaps := n } ∧
      d.totalLaps ≤ n ∧ (n = d.totalLaps ∨ lap)
  /-- The markers of the other drivers stay. -/
  markers : ∀ h, h ≠ g → c.markers.get? h = b.markers.get? h
  /-- The driver's own record goes on with the same driver, the same car and the same lap sheets of
  the other cars. -/
  own : ∃ d r, b.connected.get? g = some d ∧ c.connected.get? g = some r ∧ d.Continues r lap

variable {b c : Board} {g : Guid} {d : Driver} {lap : Prop}

/-- The record that an event makes of the driver's record goes on. -/
theorem continues_recordAfter (b : Board) (now : Instant) (d : Driver) (ev : Event) :
    d.Continues (b.recordAfter now d ev) lap := by
  cases ev with
  | clientLoaded car => exact d.continues_load now
  | carUpdate t => exact d.continues_drive t now
  | collision c => exact d.continues_collide _
  | splitCompleted s => exact d.continues_addSplit _
  | _ => exact Driver.continues_of_sheets_eq rfl rfl rfl

/-- Setting the record of a driver to one that goes on, and the marker, touches no one else. -/
theorem confinedTo_put {r : Driver} (hd : b.connected.get? g = some d) (hown : d.guid = g)
    (hr : d.Continues r lap) (f : Option (Marker → Marker)) : b.ConfinedTo (b.put g r f) g lap where
  rest := rfl
  order := Keyed.keys_modify _ _ _
  others := by
    intro h e hne he
    refine ⟨e.totalLaps, ?_, UInt32.le_refl _, Or.inl rfl⟩
    rw [get?_connected_put, if_neg hne]
    exact he
  markers := by
    intro h hne
    -- the marker that is changed stands under the GUID in the record
    have hguid : r.guid ≠ h := by
      rw [hr.guid, hown]
      exact hne.symm
    exact get?_remark_of_ne _ f hguid
  own := by
    refine ⟨d, r, hd, ?_, hr⟩
    rw [get?_connected_put, if_pos rfl, hd]
    rfl

/-- A line of the leaderboard raises the laps of one driver, and lowers none. -/
theorem ConfinedTo.raiseLaps (h : b.ConfinedTo c g lap) (hlap : lap) (line : LeaderboardLine) :
    b.ConfinedTo (c.raiseLaps line) g lap := by
  rw [Board.raiseLaps]
  split
  · exact h
  · next key e hat =>
    have he : c.connected.get? key = some e := (atCar?_eq_some_iff.1 hat).2
    refine ⟨h.rest, ?order, ?others, h.markers, ?own⟩
    case order => exact (Keyed.keys_modify _ _ _).trans h.order
    case others =>
      intro a d ha hd
      obtain ⟨n, hn, hle, -⟩ := h.others a d ha hd
      by_cases hkey : a = key
      · subst hkey
        obtain rfl : { d with totalLaps := n } = e := Option.some.inj (hn.symm.trans he)
        refine ⟨max n line.laps.toUInt32, ?_, UInt32.le_trans hle Std.left_le_max, Or.inr hlap⟩
        rw [get?_setDriver, if_pos rfl, hn]
        rfl
      · refine ⟨n, ?_, hle, Or.inr hlap⟩
        rw [get?_setDriver, if_neg hkey]
        exact hn
    case own =>
      obtain ⟨d, r, hd, hr, hgoes⟩ := h.own
      by_cases hkey : g = key
      · subst hkey
        obtain rfl : r = e := Option.some.inj (hr.symm.trans he)
        refine ⟨d, r.raiseLaps line.laps, hd, ?_, hgoes.of_sheets_eq rfl rfl rfl⟩
        rw [get?_setDriver, if_pos rfl, hr]
        rfl
      · refine ⟨d, r, hd, ?_, hgoes⟩
        rw [get?_setDriver, if_neg hkey]
        exact hr

theorem ConfinedTo.foldl_raiseLaps (h : b.ConfinedTo c g lap) (hlap : lap)
    (lines : List LeaderboardLine) : b.ConfinedTo (lines.foldl Board.raiseLaps c) g lap := by
  induction lines generalizing c with
  | nil => exact h
  | cons line lines ih => exact ih (h.raiseLaps hlap line)

end Board

namespace Engine

/-- **AN EVENT ON THE TRACK TOUCHES ITS OWN DRIVER ONLY**: in every state that can be reached, let
an event of loading, telemetry, a collision, a lap, a split or tyres name a place where a connected
driver is. Then session, track, files, places and the order of the connected drivers stay, and so do
the records and markers of all other drivers, except that a completed lap may raise the laps of
those; the driver's own record keeps the driver, the car and the lap sheets of the other cars. -/
theorem confinedTo_apply {e : Engine} (he : e.Reachable) {ev : Event} {car : CarId} {g : Guid}
    (hcar : ev.address? = some car) (hg : e.board.occupant? car = some g) (now : Instant) :
    e.board.ConfinedTo (e.apply ev now).1.board g (∃ l, ev = .lapCompleted l) := by
  obtain ⟨d, hd⟩ := Board.occupant?_eq_some_iff.1 hg
  have hget : e.board.connected.get? g = some d := (Board.atCar?_eq_some_iff.1 hd).2
  have hown : d.guid = g := he.filed.own g d hget
  by_cases hlap : ∃ l, ev = .lapCompleted l
  · obtain ⟨l, rfl⟩ := hlap
    have hlap : ∃ k, Event.lapCompleted l = .lapCompleted k := ⟨l, rfl⟩
    cases hcar
    have hput := Board.confinedTo_put hget hown (d.continues_completeLap l now hlap) none
    show e.board.ConfinedTo (completeLap _ l now).1.board g _
    rw [completeLap, withCar_of_atCar? (e := { e with lastAppliedAt := some now }) hd]
    exact hput.foldl_raiseLaps hlap l.leaderboard
  · have hplace : ev.place? = some car := by
      cases ev with
      | lapCompleted l => exact absurd ⟨l, rfl⟩ hlap
      | _ => exact hcar
    obtain ⟨hboard, -⟩ := merge_of_place? { e with lastAppliedAt := some now } now hplace hd
    show e.board.ConfinedTo (merge _ now ev).1.board g _
    rw [hboard]
    exact Board.confinedTo_put hget hown (e.board.continues_recordAfter now d ev) ev.marking?

/-- A driver who has changed cars completes a lap. The leaderboard knows more laps of another driver
than are on record. -/
theorem confinedTo_apply_of_leaderboard :
    let ann : CarInfo := { carId := 1, driverName := "Ann", guid := ⟨"a"⟩, model := "m3" }
    let lap : Event := .lapCompleted { carId := 1, leaderboard := [{ carId := 2, laps := 5 }] }
    let e := initial.run
      [.event (.newConnection ann) .zero,
       .event (.newConnection { ann with model := "z4" }) .zero,
       .event (.newConnection { carId := 2, driverName := "Bob", guid := ⟨"b"⟩ }) .zero]
    let laps (e : Engine) (g : Guid) : Option UInt32 := (e.board.connected.get? g).map (·.totalLaps)
    e.Reachable ∧ lap.address? = some 1 ∧ e.board.occupant? 1 = some ⟨"a"⟩ ∧
      e.board.ConfinedTo (e.apply lap .zero).1.board ⟨"a"⟩ (∃ l, lap = .lapCompleted l) ∧
      laps e ⟨"b"⟩ = some 0 ∧ laps (e.apply lap .zero).1 ⟨"b"⟩ = some 5 := by
  intro ann lap e laps
  have he : e.Reachable := ⟨_, rfl⟩
  have hcar : lap.address? = some 1 := rfl
  have hg : e.board.occupant? 1 = some ⟨"a"⟩ := by decide +kernel
  exact ⟨he, hcar, hg, confinedTo_apply he hcar hg .zero, by decide +kernel, by decide +kernel⟩

end Engine

end Pitwall
