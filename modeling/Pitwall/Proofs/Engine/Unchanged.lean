import Mathlib.Data.List.Induction
import Pitwall.Proofs.Engine.Interleaving
import Pitwall.Proofs.Event.Numeric
import Pitwall.Proofs.Feed.Alerts
import Pitwall.Proofs.Feed.Held

/-!
# Unchanged — an event that is said to change nothing changes nothing

Every event but a snapshot either does nothing at all or says that something changed
(**`Engine.merge_of_not_mutated`**). A snapshot is compared with the board that is there, and its
collisions with the alerts; a board without NaN that compares equal shows the same. So what is said
to be unchanged is unchanged, and events that find nobody to be about are among those:
**`Engine.apply_of_not_mutated`**.
-/

namespace Pitwall

/-! ## Engines without NaN -/

/-- No float of an engine is NaN, on the board and in the alerts. -/
structure Engine.Numeric (e : Engine) : Prop where
  board : e.board.Numeric
  alerts : ∀ x ∈ e.alerts.held, x.collision.Numeric

instance (m : Marker) : Decidable m.Numeric := inferInstanceAs (Decidable (_ ∧ _))

instance (b : Board) : Decidable b.Numeric :=
  decidable_of_iff (b.map.Numeric ∧ (∀ d ∈ b.connected.values, d.Numeric) ∧
      (∀ d ∈ b.disconnected.values, d.Numeric) ∧ ∀ m ∈ b.markers.values, m.Numeric)
    ⟨fun ⟨hmap, hconn, hfiles, hmarkers⟩ => ⟨hmap, hconn, hfiles, hmarkers⟩,
      fun h => ⟨h.map, h.connected, h.disconnected, h.markers⟩⟩

instance (e : Engine) : Decidable e.Numeric :=
  decidable_of_iff (e.board.Numeric ∧ ∀ x ∈ e.alerts.held, x.collision.Numeric)
    ⟨fun ⟨hboard, halerts⟩ => ⟨hboard, halerts⟩, fun h => ⟨h.board, h.alerts⟩⟩

theorem Alert.beq_self {x : Alert} (h : x.collision.Numeric) : (x == x) = true := by
  show (x.guid == x.guid && (x.driverName == x.driverName && x.collision == x.collision)) = true
  simp only [beq_self_eq_true, Collision.beq_self h, Bool.and_self]

namespace Alerts

/-- Alerts without NaN equal themselves. -/
theorem beq_self {a : Alerts} (h : ∀ x ∈ a.held, x.collision.Numeric) : (a == a) = true := by
  have hentries : (a.entries == a.entries) = true := by
    refine Table.beq_self fun v hv => ?_
    obtain ⟨e, he, rfl⟩ := List.mem_map.1 hv
    have halert : (e.2.alert == e.2.alert) = true :=
      Alert.beq_self (h e.2.alert (List.mem_map_of_mem he))
    show (e.2.alert == e.2.alert && e.2.hidden == e.2.hidden) = true
    rw [halert, beq_self_eq_true, Bool.and_self]
  show (a.entries == a.entries && a.seen == a.seen) = true
  rw [hentries, beq_self_eq_true, Bool.and_self]

/-- If none of the offers is taken up, the alerts stay as they are. -/
theorem offerAll_of_not_taken {a : Alerts} {offers : List Alert} {now : Instant}
    (h : (a.offerAll offers now).2 = false) : (a.offerAll offers now).1 = a := by
  induction offers using List.reverseRecOn with
  | nil => rfl
  | append_singleton offers o ih =>
      rw [offerAll_concat] at h ⊢
      obtain ⟨hany, hlast⟩ := Bool.or_eq_false_iff.1 h
      have hsame : (a.offerAll offers now).1 = a := ih hany
      rw [hsame] at hlast ⊢
      rcases a.offer_cases o now with hnot | ⟨-, -, htaken⟩
      · rw [hnot]
      · rw [htaken] at hlast
        cases hlast

end Alerts

/-! ## What events do that say nothing changed -/

namespace Engine

variable {e : Engine}

/-- Nothing is done about a driver in a place where nobody is. -/
theorem withCar_of_nobody {car : CarId} (h : e.board.occupant? car = none)
    (f : Guid → Driver → Engine × Outcome) : e.withCar car f = (e, .unchanged) := by
  have hnone : e.board.atCar? car = none := by
    rw [Option.eq_none_iff_forall_not_mem]
    rintro ⟨g, d⟩ hd
    rw [Board.occupant?_eq_some_iff.2 ⟨d, hd⟩] at h
    cases h
  rw [withCar, hnone]

/-- Where doing something about a driver always changes something, nothing changes only if there is
nobody. -/
theorem withCar_of_not_mutated {car : CarId} {f : Guid → Driver → Engine × Outcome}
    (hf : ∀ key d, (f key d).2.mutated = true) (h : (e.withCar car f).2.mutated = false) :
    (e.withCar car f).1 = e := by
  refine withCar_induction (P := fun p => p.2.mutated = false → p.1 = e) (fun _ => rfl) ?_ h
  intro key d _ hnot
  rw [hf key d] at hnot
  cases hnot

/-- Nothing is done when somebody leaves who is not there. -/
theorem disconnect_of_absent {g : Guid} (h : e.board.connected.get? g = none) :
    e.disconnect g = (e, .unchanged) := by
  rw [disconnect, h]

/-- Nothing changes for a driver who leaves only if the driver was not there. -/
theorem disconnect_of_not_mutated {g : Guid} (h : (e.disconnect g).2.mutated = false) :
    (e.disconnect g).1 = e := by
  rw [disconnect] at h ⊢
  split at h
  · rfl
  · split at h <;> cases h

/-- An event other than a snapshot that says nothing changed has done nothing. -/
theorem merge_of_not_mutated {ev : Event} (hev : ∀ s, ev ≠ .snapshot s) {now : Instant}
    (h : (e.merge now ev).2.mutated = false) : (e.merge now ev).1 = e := by
  cases ev with
  | snapshot s => exact absurd rfl (hev s)
  | newConnection car => cases h
  | connectionClosed car => exact disconnect_of_not_mutated h
  | clientLoaded car => exact withCar_of_not_mutated (fun _ _ => rfl) h
  | carUpdate t => exact withCar_of_not_mutated (fun _ _ => rfl) h
  | collision c => exact withCar_of_not_mutated (fun _ _ => rfl) h
  | lapCompleted l => exact withCar_of_not_mutated (fun _ _ => rfl) h
  | splitCompleted s => exact withCar_of_not_mutated (fun _ _ => rfl) h
  | tyresChanged car => exact withCar_of_not_mutated (fun _ _ => rfl) h
  | chat m => cases h
  | newSession s => rfl
  | sessionInfo s => rfl
  | endSession file => rfl
  | serverError text => rfl
  | ignored tag => rfl

/-- A snapshot that says nothing changed shows a board that compares equal, and none of its
collisions is news. -/
theorem resync_of_not_mutated {s : Snapshot} {now : Instant}
    (h : (e.resync s now).2.mutated = false) :
    ((e.resync s now).1.board == e.board) = true ∧ (e.resync s now).1.alerts = e.alerts := by
  obtain ⟨hoffered, hboard⟩ := Bool.or_eq_false_iff.1 h
  rw [bne, Bool.not_eq_false'] at hboard
  exact ⟨hboard, Alerts.offerAll_of_not_taken hoffered⟩

/-- An event about a driver in a place where nobody is does nothing. -/
theorem merge_of_nobody {ev : Event} {car : CarId} (hcar : ev.address? = some car)
    (h : e.board.occupant? car = none) (now : Instant) : e.merge now ev = (e, .unchanged) := by
  cases ev with
  | clientLoaded _ =>
      cases hcar
      exact withCar_of_nobody h _
  | carUpdate _ =>
      cases hcar
      exact withCar_of_nobody h _
  | collision _ =>
      cases hcar
      exact withCar_of_nobody h _
  | lapCompleted _ =>
      cases hcar
      exact withCar_of_nobody h _
  | splitCompleted _ =>
      cases hcar
      exact withCar_of_nobody h _
  | tyresChanged _ =>
      cases hcar
      exact withCar_of_nobody h _
  | _ => cases hcar

/-- An engine without NaN compares equal to what it was if an event says that nothing changed. -/
theorem Numeric.beq_of_not_mutated (hnum : e.Numeric) {ev : Event} {now : Instant}
    (hnot : (e.apply ev now).2.mutated = false) :
    ((e.apply ev now).1.board == e.board) = true ∧ ((e.apply ev now).1.chat == e.chat) = true ∧
      ((e.apply ev now).1.alerts == e.alerts) = true := by
  have hboard : (e.board == e.board) = true := Board.beq_self hnum.board
  have halerts : (e.alerts == e.alerts) = true := Alerts.beq_self hnum.alerts
  by_cases hev : ∃ s, ev = .snapshot s
  · obtain ⟨s, rfl⟩ := hev
    obtain ⟨hshown, hold⟩ :=
      resync_of_not_mutated (e := { e with lastAppliedAt := some now }) hnot
    have hheld : (e.apply (.snapshot s) now).1.alerts = e.alerts := hold
    rw [hheld]
    exact ⟨hshown, beq_self_eq_true e.chat, halerts⟩
  · have hsame : (e.apply ev now).1 = { e with lastAppliedAt := some now } :=
      merge_of_not_mutated (fun s hs => hev ⟨s, hs⟩) hnot
    rw [hsame]
    exact ⟨hboard, beq_self_eq_true e.chat, halerts⟩

/-- **UNCHANGED MEANS UNCHANGED**: if an event says that nothing changed, board, chat and alerts
compare equal to what they were, provided that no float of them was NaN. An event on the track that
names a place where no connected driver is says so and announces nothing, and so does a driver who
leaves without being connected: nothing but the time is noted. -/
theorem apply_of_not_mutated (e : Engine) (ev : Event) (now : Instant) :
    let after := e.apply ev now
    (e.Numeric → after.2.mutated = false →
      (after.1.board == e.board) = true ∧ (after.1.chat == e.chat) = true ∧
        (after.1.alerts == e.alerts) = true) ∧
      ((∃ car, ev.address? = some car ∧ e.board.occupant? car = none) ∨
        (∃ left, ev = .connectionClosed left ∧ e.board.connected.get? left.guid = none) →
      after = ({ e with lastAppliedAt := some now }, .unchanged)) := by
  intro after
  constructor
  · exact fun hnum hnot => hnum.beq_of_not_mutated hnot
  · rintro (⟨car, hcar, hnobody⟩ | ⟨left, rfl, hnone⟩)
    · exact merge_of_nobody (e := { e with lastAppliedAt := some now }) hcar hnobody now
    · exact disconnect_of_absent (e := { e with lastAppliedAt := some now }) hnone

/-- A driver has had a collision. A snapshot that shows it comes in twice, and the second one changes
nothing; neither does a lap in an empty place, nor somebody who leaves without being there. -/
theorem apply_of_not_mutated_of_second_snapshot :
    let car : CarInfo := { carId := 1, guid := ⟨"a"⟩, model := "m3" }
    let d : Driver := { car, collisions := [{ id := 1 }] }
    let s : Snapshot :=
      { connected := some { drivers := ⟨[(⟨"a"⟩, d)], by decide⟩ }, cars := ⟨[(1, ⟨"a"⟩)], by decide⟩ }
    let e := initial.run [.event (.newConnection car) .zero, .event (.snapshot s) .zero]
    let second := e.apply (.snapshot s) .zero
    let lap := e.apply (.lapCompleted { carId := 2 }) .zero
    let gone := e.apply (.connectionClosed { car with guid := ⟨"b"⟩ }) .zero
    e.Numeric ∧ e.alerts.held.length = 1 ∧ second.2 = .notify .snapshotApplied ∧
      (second.1.board == e.board) = true ∧ (second.1.alerts == e.alerts) = true ∧
      lap.2 = .unchanged ∧ gone.2 = .unchanged := by
  intro car d s e second lap gone
  have hnum : e.Numeric := by decide +kernel
  have hheld : e.alerts.held.length = 1 := by decide +kernel
  have hsecond : second.2 = .notify .snapshotApplied := by decide +kernel
  have hplace : e.board.occupant? 2 = none := by decide +kernel
  have habsent : e.board.connected.get? ⟨"b"⟩ = none := by decide +kernel
  -- from here on it does not matter which engine it is
  clear_value e
  have hnot : second.2.mutated = false := congrArg Outcome.mutated hsecond
  obtain ⟨hboard, -, halerts⟩ := (apply_of_not_mutated e (.snapshot s) .zero).1 hnum hnot
  have hlap := (apply_of_not_mutated e (.lapCompleted { carId := 2 }) .zero).2
    (Or.inl ⟨2, rfl, hplace⟩)
  have hgone := (apply_of_not_mutated e (.connectionClosed { car with guid := ⟨"b"⟩ }) .zero).2
    (Or.inr ⟨_, rfl, habsent⟩)
  exact ⟨hnum, hheld, hsecond, hboard, halerts, congrArg Prod.snd hlap, congrArg Prod.snd hgone⟩

end Engine

end Pitwall
