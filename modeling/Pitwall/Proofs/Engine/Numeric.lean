import Pitwall.Proofs.Board.Numeric
import Pitwall.Proofs.Engine.Numbering
import Pitwall.Proofs.Engine.Steps
import Pitwall.Proofs.Engine.Unchanged
import Pitwall.Proofs.Event.Decoding

/-!
# Numeric engines — no engine meets with NaN

An engine that has been given no NaN holds none: every step leaves the board numeric
(**`Board.Numeric.step`**), and the alerts are about collisions that were on the board. What an
engine receives comes from texts, and no text says NaN. So every state that an engine can get into
is numeric: **`Engine.ReachableBy.numeric`**.
-/

namespace Pitwall

namespace Input

/-- No float of an input is NaN. -/
def Numeric : Input → Prop
  | .event ev _ => ev.Numeric
  | _ => True

/-- What is received is numeric. -/
theorem Received.numeric {i : Input} (h : i.Received) : i.Numeric := by
  cases i with
  | event ev now =>
      obtain ⟨text, htext⟩ := h
      exact Message.numeric_of_decode? htext
  | tick t now => trivial
  | reset => trivial

end Input

/-! ## Boards -/

namespace Board

variable {b c : Board} {i : Input}

theorem numeric_recorded (b : Board) (d : Driver) {r : CollisionReport} (hr : r.Numeric)
    (now : Instant) : (b.recorded d r now).Numeric :=
  ⟨Binary.isNumber_convert (by decide) hr.speed, hr.damage⟩

/-- What happens on the track brings no NaN but that of the event. -/
theorem numeric_recordAfter (b : Board) {d : Driver} (h : d.Numeric) {ev : Event}
    (hev : ev.Numeric) (now : Instant) : (b.recordAfter now d ev).Numeric := by
  cases ev with
  | clientLoaded car =>
      show (d.load now).Numeric
      rw [Driver.load]
      split
      · exact h
      · exact ⟨h.spline, h.lastPosition, h.collisions, h.sheets⟩
  | carUpdate t => exact h.drive hev now
  | collision r => exact h.collide (b.numeric_recorded d hev now)
  | splitCompleted s => exact h.insertSheet d.model h.sheet
  | tyresChanged car => exact ⟨h.spline, h.lastPosition, h.collisions, h.sheets⟩
  | _ => exact h

/-- Numeric records stay so. -/
theorem carries_numeric (b : Board) (hi : i.Numeric) :
    b.Carries i Driver.Numeric Driver.Numeric where
  anyCar := Driver.anyCar_numeric
  kept := fun _ h => h
  listed := by
    rintro s now rfl
    exact ⟨hi.connected, hi.disconnected⟩
  fresh := Driver.numeric_ofCar
  joined := by
    intro d car _ _ _ h
    have hsheets := h.addSheet car
    exact ⟨hsheets.spline, hsheets.lastPosition, hsheets.collisions, hsheets.sheets⟩
  driven := by
    rintro ev now d rfl h
    exact b.numeric_recordAfter h hi now
  lapped := fun l now d _ h => h.completeLap l now
  raised := fun d n _ h => ⟨h.spline, h.lastPosition, h.collisions, h.sheets⟩

/-- Numeric markers stay so. -/
theorem NumericMarkers.step (h : b.NumericMarkers) (hi : i.Numeric) (hstep : b.Step i c) :
    c.NumericMarkers := by
  cases hstep with
  | same => exact h
  | resync s now => exact numericMarkers_resync hi h
  | connect car now =>
      intro g m hm
      rw [markers_connect] at hm
      exact h.insert car.guid (Marker.numeric_ofCar car) g m hm
  | purge now hd => exact h.remove _
  | leave now hd => exact h.remove _
  | @put ev car g d now hcar hd =>
      have hbefore := h.getD (b.recordAfter now d ev).guid (b.recordAfter now d ev).car
      cases ev with
      | clientLoaded place => exact h.insert _ hbefore
      | carUpdate t => exact h.insert _ ⟨hi.position, Telemetry.isNumber_speed hi.velocity⟩
      | _ => exact h
  | lap now hd =>
      rw [NumericMarkers, foldl_raiseLaps_eq]
      exact h
  | rank now => exact h
  | reset => exact fun _ _ hm => nomatch hm

/-- The map is that of the latest snapshot. -/
theorem numericMap_step (h : b.map.Numeric) (hi : i.Numeric) (hstep : b.Step i c) :
    c.map.Numeric := by
  cases hstep with
  | same => exact h
  | resync s now =>
      show ((ofSnapshot s).takeOverMarkers b.markers).bare.map.Numeric
      rw [bare_takeOverMarkers, ofSnapshot_eq]
      exact hi.map
  | connect car now =>
      rw [connect_eq, sync_eq]
      exact h
  | purge now hd => exact h
  | leave now hd => exact h
  | put ev now hcar hd => exact h
  | lap now hd =>
      rw [foldl_raiseLaps_eq]
      exact h
  | rank now => exact h
  | reset => exact TrackMap.numeric_default

/-- **A STEP BRINGS NO NaN** but that of its input. -/
theorem Numeric.step (h : b.Numeric) (hi : i.Numeric) (hstep : b.Step i c) : c.Numeric := by
  obtain ⟨hmap, hrecords, hmarkers⟩ := numeric_iff.1 h
  exact numeric_iff.2 ⟨numericMap_step hmap hi hstep, hrecords.step (b.carries_numeric hi) hstep,
    hmarkers.step hi hstep⟩

theorem numeric_empty : ({} : Board).Numeric :=
  numeric_iff.2 ⟨TrackMap.numeric_default, .empty, fun _ _ hm => nomatch hm⟩

end Board

/-! ## Alerts -/

namespace Engine

variable {e : Engine}

/-- The alerts after an input are about collisions that were held before, or that have come in with
it. -/
theorem numericAlerts_react (h : e.Numeric) (hsound : e.alerts.Sound) {i : Input} (hi : i.Numeric) :
    ∀ x ∈ (e.react i).1.alerts.held, x.collision.Numeric := by
  refine alerts_react_induction (P := fun a => ∀ x ∈ a.held, x.collision.Numeric)
    (fun _ hx => nomatch hx) h.alerts ?collision ?snapshot ?sweep
  case collision =>
    rintro c d now rfl x hx
    rcases hsound.mem_held_offer hx with hx | rfl
    · exact h.alerts x hx
    · exact e.board.numeric_recorded d hi now
  case snapshot =>
    rintro s now rfl x hx
    rcases hsound.mem_held_offerAll hx with hx | hx
    · exact h.alerts x hx
    · -- it is one of those that the snapshot tells of its connected drivers
      have hboard : (e.resync s now).1.board.Numeric :=
        h.board.step hi (e.step_react (.event (.snapshot s) now))
      obtain ⟨d, hd, hc⟩ := Board.mem_collisionAlerts hx
      exact (hboard.connected d (Keyed.mem_values_iff.2 ⟨x.guid, hd⟩)).collisions _ hc
  case sweep =>
    intro now x hx
    refine h.alerts x ?_
    rw [e.alerts.held_eq_append_sweep now]
    exact List.mem_append_right _ hx

/-! ## Engines -/

theorem numeric_initial : initial.Numeric := ⟨Board.numeric_empty, fun _ hx => nomatch hx⟩

/-- **AN INPUT WITHOUT NaN LEAVES AN ENGINE WITHOUT NaN.** -/
theorem Numeric.react (h : e.Numeric) (hsound : e.alerts.Sound) {i : Input} (hi : i.Numeric) :
    (e.react i).1.Numeric :=
  ⟨h.board.step hi (e.step_react i), numericAlerts_react h hsound hi⟩

/-- **NO ENGINE MEETS WITH NaN**: whatever it receives, none of its floats is NaN. -/
theorem ReachableBy.numeric (h : e.ReachableBy Input.Received) : e.Numeric := by
  refine (h.induction (I := fun e => e.Reachable ∧ e.Numeric) ⟨⟨[], rfl⟩, numeric_initial⟩ ?_).2
  rintro e i hi ⟨hreach, hnum⟩
  exact ⟨hreach.react i, hnum.react hreach.sound hi.numeric⟩

end Engine

end Pitwall
