import Pitwall.Engine.Apply
import Pitwall.Event.Envelope

/-!
# Runs — all that can happen to an engine

An engine meets with events, periodic jobs and resets, in any order and at any times. A **run**
is a list of these; the states that the engine can be in are those that a run from the initial
state leads to.

* **`Engine.run_induction`** carries an invariant from one input to a whole run.
* **`Engine.ReachableBy`** names the states that runs of some kind of input lead to, for instance of
  inputs that can come in (**`Input.Received`**).
-/

namespace Pitwall

/-- What an engine meets with. -/
inductive Input where
  /-- An event that comes in at a time. -/
  | event (event : Event) (now : Instant)
  /-- A periodic job that is run at a time. -/
  | tick (tick : Tick) (now : Instant)
  /-- All that is known is discarded. -/
  | reset

namespace Input

def isReset : Input → Bool
  | .reset => true
  | _ => false

theorem eq_reset {i : Input} (h : i.isReset = true) : i = .reset := by
  cases i with
  | reset => rfl
  | _ => cases h

/-- What can come in: every event is what some text says, and jobs and resets come by themselves. -/
def Received : Input → Prop
  | .event ev _ => ∃ text, Message.decode? text = some (.event ev)
  | _ => True

end Input

namespace Engine

/-- What becomes of the engine with one input, and what it announces. -/
def react (e : Engine) : Input → Engine × List Notification
  | .event event now => ((e.apply event now).1, (e.apply event now).2.notifications)
  | .tick tick now => e.tick tick now
  | .reset => (.initial, [])

/-- What becomes of the engine in a run. -/
def run (e : Engine) (inputs : List Input) : Engine := inputs.foldl (fun e i => (e.react i).1) e

/-- What the engine announces in a run, input by input. -/
def announcements (e : Engine) : List Input → List (List Notification)
  | [] => []
  | i :: inputs => (e.react i).2 :: (e.react i).1.announcements inputs

/-- The engine can get into this state by inputs of some kind alone. -/
def ReachableBy (allowed : Input → Prop) (e : Engine) : Prop :=
  ∃ inputs, (∀ i ∈ inputs, allowed i) ∧ initial.run inputs = e

/-- The engine can get into this state. -/
def Reachable (e : Engine) : Prop := ∃ inputs, initial.run inputs = e

theorem run_cons (e : Engine) (i : Input) (inputs : List Input) :
    e.run (i :: inputs) = (e.react i).1.run inputs := rfl

theorem run_append (e : Engine) (is js : List Input) : e.run (is ++ js) = (e.run is).run js :=
  List.foldl_append

theorem run_snoc (e : Engine) (is : List Input) (i : Input) :
    e.run (is ++ [i]) = ((e.run is).react i).1 := e.run_append is [i]

theorem announcements_append (e : Engine) (is js : List Input) :
    e.announcements (is ++ js) = e.announcements is ++ (e.run is).announcements js := by
  induction is generalizing e with
  | nil => rfl
  | cons i is ih =>
      rw [List.cons_append, announcements, announcements, ih, run_cons, List.cons_append]

theorem reachableBy_initial {p : Input → Prop} : initial.ReachableBy p :=
  ⟨[], List.forall_mem_nil _, rfl⟩

/-- One more input of the kind leads to a state that can be reached as well. -/
theorem ReachableBy.react {p : Input → Prop} {e : Engine} (h : e.ReachableBy p) {i : Input}
    (hi : p i) : (e.react i).1.ReachableBy p := by
  obtain ⟨inputs, hall, rfl⟩ := h
  refine ⟨inputs ++ [i], fun j hj => ?_, run_append _ _ _⟩
  rcases List.mem_append.1 hj with hj | hj
  · exact hall j hj
  · rw [List.mem_singleton.1 hj]
    exact hi

theorem Reachable.react {e : Engine} (h : e.Reachable) (i : Input) : (e.react i).1.Reachable := by
  obtain ⟨inputs, rfl⟩ := h
  exact ⟨inputs ++ [i], run_snoc _ _ _⟩

/-- What every single input keeps, a run keeps. -/
theorem run_induction {p : Input → Prop} {I : Engine → Prop}
    (hstep : ∀ e i, p i → I e → I (e.react i).1) {e : Engine} (he : I e)
    {inputs : List Input} (hall : ∀ i ∈ inputs, p i) : I (e.run inputs) := by
  induction inputs generalizing e with
  | nil => exact he
  | cons i inputs ih =>
      rw [run_cons]
      refine ih (hstep e i (hall i List.mem_cons_self) he) ?_
      intro j hj
      exact hall j (List.mem_cons_of_mem _ hj)

/-- What holds at first and is kept by every input holds in every state that can be reached. -/
theorem Reachable.induction {I : Engine → Prop} (hinit : I initial)
    (hstep : ∀ e i, I e → I (e.react i).1) {e : Engine} (h : e.Reachable) : I e := by
  obtain ⟨inputs, rfl⟩ := h
  exact run_induction (p := fun _ => True) (fun e i _ => hstep e i) hinit
    (fun _ _ => trivial)

/-- The same for states that inputs of one kind lead to. -/
theorem ReachableBy.induction {p : Input → Prop} {I : Engine → Prop}
    (hinit : I initial) (hstep : ∀ e i, p i → I e → I (e.react i).1) {e : Engine}
    (h : e.ReachableBy p) : I e := by
  obtain ⟨inputs, hall, rfl⟩ := h
  exact run_induction hstep hinit hall

end Engine

end Pitwall
