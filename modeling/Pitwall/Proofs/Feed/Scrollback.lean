import Pitwall.Proofs.Data.Suffix
import Pitwall.Proofs.Engine.Driving
import Pitwall.Proofs.Engine.Run

/-!
# Scrollback — what is given up and what is kept

A push adds a message at the end and gives up the one at the front if there is no room, so the
messages that have been given up and those that are held are together what has been pushed
(**`Scrollback.givenUp_append_messages`**), and what is held is its end
(**`Scrollback.messages_pushAll`**). The engine pushes the message of a chat event, and short of a
reset nothing else that it meets with touches the scrollback (**`Engine.chat_react`**). So it holds
the end of what has been said: **`Engine.conserves_messages`**.
-/

namespace Pitwall

namespace Scrollback

/-- The scrollback after messages have been pushed one after the other. -/
def pushAll (s : Scrollback) (ms : List ChatMessage) : Scrollback :=
  ms.foldl (fun s m => (s.push m).1) s

/-- The messages that are given up while others are pushed, in order. -/
def givenUp (s : Scrollback) : List ChatMessage → List ChatMessage
  | [] => []
  | m :: ms => (s.push m).2.toList ++ (s.push m).1.givenUp ms

variable (s : Scrollback)

/-! ## One message -/

theorem capacity_push (m : ChatMessage) : (s.push m).1.capacity = s.capacity := by
  rw [push]
  split <;> rfl

/-- What is given up stands at the front of what was held, with the new message at its end. -/
theorem toList_push_append (m : ChatMessage) :
    (s.push m).2.toList ++ (s.push m).1.messages = s.messages ++ [m] := by
  rw [push]
  split
  · rfl
  · show (s.messages ++ [m]).head?.toList ++ (s.messages ++ [m]).tail = s.messages ++ [m]
    cases s.messages ++ [m] <;> rfl

/-- A push keeps as much of the end as there is room for. -/
theorem messages_push (m : ChatMessage) :
    (s.push m).1.messages = (s.messages ++ [m]).rtake s.capacity := by
  have hlength : (s.messages ++ [m]).length = s.messages.length + 1 := List.length_append
  rw [push]
  split
  · next hroom =>
    have hle : (s.messages ++ [m]).length ≤ s.capacity := by omega
    exact (rtake_of_length_le hle).symm
  · next hfull =>
    -- no more than the capacity is ever held, so one message is too many
    have hbounded := s.bounded
    have hone : (s.messages ++ [m]).length - s.capacity = 1 := by omega
    rw [List.rtake, hone, List.drop_one]

/-! ## Any number of messages -/

theorem pushAll_append (ms ns : List ChatMessage) :
    s.pushAll (ms ++ ns) = (s.pushAll ms).pushAll ns := List.foldl_append

/-- **NOTHING IS LOST**: what is given up, and then what is held, is what was held and pushed. -/
theorem givenUp_append_messages (ms : List ChatMessage) :
    s.givenUp ms ++ (s.pushAll ms).messages = s.messages ++ ms := by
  induction ms generalizing s with
  | nil => exact (List.append_nil _).symm
  | cons m ms ih =>
      show (s.push m).2.toList ++ (s.push m).1.givenUp ms ++ ((s.push m).1.pushAll ms).messages = _
      rw [List.append_assoc, ih, ← List.append_assoc, toList_push_append, List.append_assoc]
      rfl

/-- **THE LATEST IS KEPT**: as much of the end as there is room for. -/
theorem messages_pushAll (ms : List ChatMessage) :
    (s.pushAll ms).messages = (s.messages ++ ms).rtake s.capacity := by
  induction ms generalizing s with
  | nil =>
      rw [List.append_nil, rtake_of_length_le s.bounded]
      rfl
  | cons m ms ih =>
      show ((s.push m).1.pushAll ms).messages = _
      rw [ih, capacity_push, messages_push, rtake_rtake_append, List.append_assoc]
      rfl

end Scrollback

/-! ## Chat -/

namespace Input

/-- The chat message that comes in. -/
def said? : Input → Option ChatMessage
  | .event (.chat m) _ => some m
  | _ => none

end Input

/-- What an engine has met with since it was last reset. -/
def sinceReset (inputs : List Input) : List Input := inputs.rtakeWhile (fun i => !i.isReset)

namespace Engine

/-- An event takes in the message that it brings, if it brings one. -/
theorem chat_merge (e : Engine) (now : Instant) (ev : Event) :
    (e.merge now ev).1.chat = e.chat.pushAll (Input.event ev now).said?.toList := by
  have hcar : ∀ {car : CarId} {f : Guid → Driver → Engine × Outcome},
      (∀ g d, (f g d).1.chat = e.chat) → (e.withCar car f).1.chat = e.chat :=
    fun hf => withCar_induction (P := fun p => p.1.chat = e.chat) rfl fun g d _ => hf g d
  cases ev with
  | connectionClosed car =>
      exact disconnect_induction (P := fun p => p.1.chat = e.chat) rfl (fun _ _ => rfl)
        fun _ _ => rfl
  | clientLoaded car => exact hcar fun _ _ => rfl
  | carUpdate t => exact hcar fun _ _ => rfl
  | collision c => exact hcar fun _ _ => rfl
  | lapCompleted l => exact hcar fun _ _ => rfl
  | splitCompleted s => exact hcar fun _ _ => rfl
  | tyresChanged car => exact hcar fun _ _ => rfl
  | _ => rfl

/-- **ONE INPUT** short of a reset leaves the scrollback alone, unless it is a chat message. -/
theorem chat_react (e : Engine) {i : Input} (hi : i.isReset = false) :
    (e.react i).1.chat = e.chat.pushAll i.said?.toList := by
  cases i with
  | event ev now => exact chat_merge { e with lastAppliedAt := some now } now ev
  | tick t now =>
      show (e.tick t now).1.chat = e.chat
      simp only [tick]
      split
      · rfl
      · cases t <;> rfl
  | reset => cases hi

/-- **A RUN** pushes what has been said since the last reset onto an empty scrollback. -/
theorem chat_run (inputs : List Input) :
    (initial.run inputs).chat =
      (default : Scrollback).pushAll ((sinceReset inputs).filterMap Input.said?) := by
  induction inputs using List.reverseRecOn with
  | nil => rfl
  | append_singleton inputs i ih =>
      rw [run_snoc, sinceReset]
      cases hi : i.isReset with
      | true =>
          rw [List.rtakeWhile_concat_neg _ _ _ (by simp [hi]), Input.eq_reset hi]
          rfl
      | false =>
          rw [List.rtakeWhile_concat_pos _ _ _ (by simp [hi]), List.filterMap_append,
            Scrollback.pushAll_append, chat_react _ hi, ih]
          cases hsaid : i.said? <;> simp [hsaid, sinceReset]

/-- **MESSAGES ARE CONSERVED**: whatever the capacity, what is given up while messages are pushed
onto an empty scrollback, followed by what it holds, is all that was pushed, in order, and it holds
the last of them, as many as there is room for. In an engine, whatever it has met with, these are
the last fifty chat messages since it was last reset. -/
theorem conserves_messages :
    (∀ (capacity : Nat) (ms : List ChatMessage),
      let empty := Scrollback.ofCapacity capacity
      let s := empty.pushAll ms
      empty.givenUp ms ++ s.messages = ms ∧ s.messages = ms.rtake (min capacity ms.length)) ∧
    ∀ inputs : List Input,
      (initial.run inputs).chat.messages =
        ((sinceReset inputs).filterMap Input.said?).rtake 50 := by
  constructor
  · intro capacity ms empty s
    refine ⟨empty.givenUp_append_messages ms, (empty.messages_pushAll ms).trans ?_⟩
    show ms.drop (ms.length - capacity) = ms.drop (ms.length - min capacity ms.length)
    congr 1
    omega
  · intro inputs
    rw [chat_run, Scrollback.messages_pushAll]
    rfl

end Engine

end Pitwall
