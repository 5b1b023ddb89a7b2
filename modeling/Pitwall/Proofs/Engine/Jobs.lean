import Pitwall.Proofs.Board.LeftStanding
import Pitwall.Proofs.Engine.Filed
import Pitwall.Proofs.Engine.Ticks

/-!
# Jobs — what the periodic jobs may change

Before the first snapshot the periodic jobs do nothing. Then the one of the clock changes nothing,
the one of the feeds the alerts, and the one of the standings the two orders in which the records
stand. A standing is an arrangement of the records that depends on nothing but the records, or else
it is the order that they stand in already. So sorting a second time finds every record in its place
(**`Board.ranked_ranked`**), and nothing is announced: **`Engine.jobs_keep_to_themselves`**.
-/

namespace Pitwall

variable {kind : SessionKind}

/-! ## Sorting twice -/

theorem standing_of_ne_race (h : kind ≠ .race) (m : Keyed Guid Driver) :
    standing kind m = m.keys := if_neg h

/-- Records that have been brought into the order of their standing stand in that order. -/
theorem standing_arrange {m : Keyed Guid Driver} (own : ∀ g d, m.get? g = some d → d.guid = g) :
    standing kind (m.arrange (standing kind m)) = (m.arrange (standing kind m)).keys := by
  by_cases h : kind = .race
  · subst h
    have hsame : standing .race (m.arrange (standing .race m)) = standing .race m :=
      sortedKeys_congr (m.get?_arrange _) (fst_eq_of_racingOrder own)
    have hkeys : (m.arrange (standing .race m)).keys = standing .race m :=
      Keyed.keys_arrange (sortedKeys_perm m)
    rw [hsame, hkeys]
  · exact standing_of_ne_race h _

theorem leftStanding_arrange (m : Keyed Slot Driver) :
    leftStanding kind (m.arrange (leftStanding kind m)) =
      (m.arrange (leftStanding kind m)).keys := by
  have hsame : leftStanding kind (m.arrange (leftStanding kind m)) = leftStanding kind m :=
    leftStanding_congr kind (m.get?_arrange _)
  have hkeys : (m.arrange (leftStanding kind m)).keys = leftStanding kind m :=
    Keyed.keys_arrange (sortedKeys_perm m)
  rw [hsame, hkeys]

namespace Board

/-- Both kinds of drivers in the order of their standings. -/
def ranked (b : Board) : Board := b.rankConnected.rankDisconnected

/-- **SORTING IS DONE ONCE**: a second time changes nothing. -/
theorem ranked_ranked {b : Board} (own : ∀ g d, b.connected.get? g = some d → d.guid = g) :
    b.ranked.ranked = b.ranked := by
  have hconnected : b.ranked.rankConnected = b.ranked := by
    show { b.ranked with
      connected := b.ranked.connected.arrange (standing b.session.kind b.ranked.connected) } = _
    have hsettled : standing b.session.kind b.ranked.connected = b.ranked.connected.keys :=
      standing_arrange own
    rw [hsettled, Keyed.arrange_keys]
  have hdisconnected : b.ranked.rankDisconnected = b.ranked := by
    show { b.ranked with
      disconnected :=
        b.ranked.disconnected.arrange (leftStanding b.session.kind b.ranked.disconnected) } = _
    have hsettled : leftStanding b.session.kind b.ranked.disconnected =
        b.ranked.disconnected.keys := leftStanding_arrange b.disconnected
    rw [hsettled, Keyed.arrange_keys]
  rw [ranked, hconnected, hdisconnected]

end Board

namespace Engine

variable {e : Engine}

/-! ## The jobs -/

/-- Before the first snapshot no job does anything. -/
theorem tick_of_uninitialised (h : e.board.initialised = false) (t : Tick) (now : Instant) :
    e.tick t now = (e, []) := by
  simp only [tick, h]
  rfl

theorem tick_of_initialised (h : e.board.initialised = true) (t : Tick) (now : Instant) :
    e.tick t now = match t with
      | .progress => (e, [.progressUpdated (e.board.progress now)])
      | .standings => e.rank
      | .feeds => ({ e with alerts := (e.alerts.sweep now).1 }, [.telemetryRefreshed]) := by
  simp only [tick, h]
  rfl

/-- Once the records stand in order, sorting announces nothing and changes nothing. -/
theorem rank_of_ranked (h : e.board.ranked = e.board) : e.rank = (e, []) := by
  have hboard : e.board.rankConnected.rankDisconnected = e.board := h
  rw [rank]
  simp only [hboard, if_true]
  rfl

/-! ## The standings -/

/-- The job of the standings touches nothing but the board. -/
theorem tick_standings_eq (e : Engine) (now : Instant) :
    (e.tick .standings now).1 = e.setBoard (e.tick .standings now).1.board := by
  cases hready : e.board.initialised with
  | false =>
      rw [tick_of_uninitialised hready]
      rfl
  | true =>
      rw [tick_of_initialised hready]
      rfl

/-- It announces the orders that have changed. -/
theorem announced_tick_standings (e : Engine) (now : Instant) :
    let c := (e.tick .standings now).1.board
    (e.tick .standings now).2 =
      (if c.connected.keys = e.board.connected.keys then [] else [.standingsChanged]) ++
      (if c.disconnected.keys = e.board.disconnected.keys then []
        else [.disconnectedStandingsChanged]) := by
  cases hready : e.board.initialised with
  | false =>
      rw [tick_of_uninitialised hready]
      simp only [if_true]
      rfl
  | true =>
      rw [tick_of_initialised hready]
      rfl

/-- Outside of races, the connected drivers keep their order. -/
theorem connected_tick_standings (h : e.board.session.kind ≠ .race) (now : Instant) :
    (e.tick .standings now).1.board.connected = e.board.connected := by
  cases hready : e.board.initialised with
  | false => rw [tick_of_uninitialised hready]
  | true =>
      rw [tick_of_initialised hready]
      show e.board.connected.arrange (standing e.board.session.kind e.board.connected) = _
      rw [standing_of_ne_race h, Keyed.arrange_keys]

/-- A second time nothing happens. -/
theorem tick_standings_tick (own : ∀ g d, e.board.connected.get? g = some d → d.guid = g)
    (now later : Instant) :
    (e.tick .standings now).1.tick .standings later = ((e.tick .standings now).1, []) := by
  cases hready : e.board.initialised with
  | false =>
      rw [tick_of_uninitialised hready]
      exact tick_of_uninitialised hready .standings later
  | true =>
      have hstill : e.rank.1.board.initialised = true := hready
      have hsettled : e.rank.1.board.ranked = e.rank.1.board := Board.ranked_ranked own
      rw [tick_of_initialised hready, tick_of_initialised hstill]
      exact rank_of_ranked hsettled

/-- **EVERY JOB KEEPS TO ITSELF**. In every state that can be reached, no job does anything before
the first snapshot; the one of the clock changes nothing, and the one of the feeds nothing but the
alerts. The one of the standings changes nothing but the two orders in which the records stand. It
announces an order exactly if that has changed, which the order of the connected drivers does in
races only. If it runs again directly afterwards, it announces nothing and changes nothing. -/
theorem jobs_keep_to_themselves (he : e.Reachable) (now : Instant) :
    let b := e.board
    let after := e.tick .standings now
    let c := after.1.board
    (b.initialised = false → ∀ t, e.tick t now = (e, [])) ∧
    (e.tick .progress now).1 = e ∧
    (∃ alerts, (e.tick .feeds now).1 = { e with alerts }) ∧
    (after.1 = { e with board := c } ∧ c.SameRecords b) ∧
    after.2 =
      (if c.connected.keys = b.connected.keys then [] else [.standingsChanged]) ++
      (if c.disconnected.keys = b.disconnected.keys then []
        else [.disconnectedStandingsChanged]) ∧
    (b.session.kind ≠ .race → c.connected = b.connected) ∧
    ∀ later, after.1.tick .standings later = (after.1, []) := by
  intro b after c
  refine ⟨fun hready t => tick_of_uninitialised hready t now, ?_, ?_,
    ⟨e.tick_standings_eq now, e.sameRecords_tick .standings now⟩, e.announced_tick_standings now,
    fun hkind => connected_tick_standings hkind now, tick_standings_tick he.filed.own now⟩
  · cases hready : e.board.initialised with
    | false => rw [tick_of_uninitialised hready]
    | true => rw [tick_of_initialised hready]
  · cases hready : e.board.initialised with
    | false => exact ⟨e.alerts, congrArg Prod.fst (tick_of_uninitialised hready .feeds now)⟩
    | true => exact ⟨_, congrArg Prod.fst (tick_of_initialised hready .feeds now)⟩

/-- A driver overtakes in a race: the order of the connected drivers is announced once. -/
theorem jobs_keep_to_themselves_after_overtaking :
    let e := initial.run
      [.event (.snapshot { session := { kind := .race } }) .zero,
       .event (.newConnection { carId := 1, guid := ⟨"a"⟩, model := "m3" }) .zero,
       .event (.newConnection { carId := 2, guid := ⟨"b"⟩, model := "m3" }) .zero,
       .event (.lapCompleted { carId := 2, millis := 80000 }) .zero]
    let after := e.tick .standings .zero
    after.2 = [.standingsChanged] ∧
      ∀ later, after.1.tick .standings later = (after.1, []) := by
  intro e after
  obtain ⟨-, -, -, ⟨-, hsame⟩, hnotes, -, hsecond⟩ :=
    jobs_keep_to_themselves (e := e) ⟨_, rfl⟩ .zero
  have hkind : e.board.session.kind = .race := by decide +kernel
  have hready : e.board.initialised = true := by decide +kernel
  have hovertaken : standing e.board.session.kind e.board.connected =
      e.board.connected.keys.reverse := by
    rw [hkind]
    exact sortedKeys_of_gt (by decide +kernel) (by decide +kernel)
  have hconnected : after.1.board.connected =
      e.board.connected.arrange e.board.connected.keys.reverse := by
    rw [← hovertaken]
    exact congrArg (fun p => p.1.board.connected) (tick_of_initialised hready .standings .zero)
  have hmoved : after.1.board.connected.keys ≠ e.board.connected.keys := by
    rw [hconnected]
    decide +kernel
  have hempty : e.board.disconnected.keys = [] := by decide +kernel
  have hnofiles : after.1.board.disconnected.keys = e.board.disconnected.keys := by
    rw [hempty, ← List.perm_nil, ← hempty]
    exact hsame.disconnected.keys_perm
  exact ⟨hnotes.trans (by rw [if_neg hmoved, if_pos hnofiles]; rfl), hsecond⟩

end Engine

end Pitwall
