import Pitwall.Proofs.Data.Suffix
import Pitwall.Proofs.Engine.Numbering
import Pitwall.Proofs.Engine.Onward

/-!
# Collision histories — the newest are kept, under numbers of their own

A record keeps the newest collisions, and the next number is one more than the greatest that is kept.
The history that a snapshot brings may be longer than what is kept, with its numbers in any order, so
the greatest of them may be among those that give way. Still no number is given out twice: the
collision that makes the old ones give way is numbered before they do, and it is the last one to go
itself (**`Collision.nextNumber_added`**). So collisions one after the other leave the end of the old
history followed by all of them, numbered on (**`Collision.foldl_added`**), and that is what becomes
of a history in a run without comings and goings: **`Engine.history_of_run`**.
-/

namespace Pitwall

/-! ## Numbers -/

namespace Collision

/-- The number after those of a history: one more than the greatest, or 0 if there is none. -/
def nextNumber (history : List Collision) : Nat :=
  (history.map Collision.id).max?.elim 0 (fun n => n.toNat + 1)

/-- Collisions under the numbers from the given one on. -/
def numberedFrom : Nat → List Collision → List Collision
  | _, [] => []
  | n, c :: cs => { c with id := .ofNat n } :: numberedFrom (n + 1) cs

/-- The history with one more collision under the next number; the oldest ones give way. -/
def added (history : List Collision) (c : Collision) : List Collision :=
  (history ++ [{ c with id := .ofNat (nextNumber history) }]).rtake 20

variable {history : List Collision} {c : Collision}

theorem lt_nextNumber (hc : c ∈ history) : c.id.toNat < nextNumber history := by
  have hmem : c.id ∈ history.map Collision.id := List.mem_map_of_mem hc
  rw [nextNumber]
  cases hmax : (history.map Collision.id).max? with
  | none =>
      rw [List.max?_eq_none_iff.1 hmax] at hmem
      cases hmem
  | some top =>
      have hle := (List.max?_eq_some_iff.1 hmax).2 c.id hmem
      exact Nat.lt_succ_of_le (UInt32.le_iff_toNat_le.1 hle)

/-- A number that stands in a history and is not exceeded there is the greatest. -/
theorem nextNumber_eq_of_greatest (hc : c ∈ history)
    (hle : ∀ k ∈ history, k.id.toNat ≤ c.id.toNat) : nextNumber history = c.id.toNat + 1 := by
  have hmax : (history.map Collision.id).max? = some c.id := by
    refine List.max?_eq_some_iff.2 ⟨List.mem_map_of_mem hc, fun n hn => ?_⟩
    obtain ⟨k, hk, rfl⟩ := List.mem_map.1 hn
    exact UInt32.le_iff_toNat_le.2 (hle k hk)
  rw [nextNumber, hmax]
  rfl

theorem toNat_ids_numberedFrom {n : Nat} {cs : List Collision}
    (h : n + cs.length ≤ UInt32.size) :
    (numberedFrom n cs).map (·.id.toNat) = List.range' n cs.length := by
  induction cs generalizing n with
  | nil => rfl
  | cons c cs ih =>
      rw [List.length_cons] at h
      rw [numberedFrom, List.map_cons, ih (by omega), List.length_cons, List.range'_succ]
      exact congrArg (· :: _) (UInt32.toNat_ofNat_of_lt' (by omega))

/-- What is numbered stays as it is otherwise. -/
theorem map_numberedFrom {α : Type} (f : Collision → α)
    (hf : ∀ (c : Collision) id, f { c with id } = f c) (n : Nat) (cs : List Collision) :
    (numberedFrom n cs).map f = cs.map f := by
  induction cs generalizing n with
  | nil => rfl
  | cons c cs ih => rw [numberedFrom, List.map_cons, List.map_cons, ih, hf]

/-! ## Histories -/

/-- **NO NUMBER IS GIVEN OUT AGAIN**: the next number goes up by one, whatever gives way. -/
theorem nextNumber_added (h : nextNumber history < UInt32.size) (c : Collision) :
    nextNumber (added history c) = nextNumber history + 1 := by
  let new : Collision := { c with id := .ofNat (nextNumber history) }
  have hid : new.id.toNat = nextNumber history := UInt32.toNat_ofNat_of_lt' h
  have hkept : added history c = history.rtake 19 ++ [new] := List.rtake_concat_succ ..
  rw [← hid]
  refine nextNumber_eq_of_greatest (by simp [hkept]) fun k hk => ?_
  rcases List.mem_append.1 (List.mem_of_mem_drop hk) with hold | hnew
  · rw [hid]
    exact Nat.le_of_lt (lt_nextNumber hold)
  · rw [List.mem_singleton.1 hnew]

/-- **COLLISIONS ONE AFTER THE OTHER** leave the end of the old history followed by all of them,
numbered from the first free number on. -/
theorem foldl_added {cs : List Collision} (hcs : cs ≠ [])
    (h : nextNumber history + cs.length ≤ UInt32.size) :
    cs.foldl added history = (history ++ numberedFrom (nextNumber history) cs).rtake 20 := by
  induction cs generalizing history with
  | nil => exact absurd rfl hcs
  | cons c cs ih =>
      rw [List.length_cons] at h
      by_cases hlast : cs = []
      · rw [hlast]
        rfl
      · have hfits : nextNumber history < UInt32.size := by omega
        have hnext := nextNumber_added hfits c
        rw [List.foldl_cons, ih hlast (by omega), hnext, added, rtake_rtake_append,
          List.append_assoc]
        rfl

end Collision

namespace Driver

/-- The next number is the one after those of the history, as far as the word holds it. -/
theorem nextCollisionId_eq (d : Driver) :
    d.nextCollisionId = .ofNat (Collision.nextNumber d.collisions) := by
  rw [nextCollisionId, Collision.nextNumber]
  cases (d.collisions.map Collision.id).max? with
  | none => rfl
  | some top => rw [Option.elim_some, UInt32.ofNat_add, UInt32.ofNat_toNat]; rfl

end Driver

/-! ## Runs -/

namespace Board

/-- The collision that a driver has with an input, as it would be the first one on record. -/
def hitOf? (b : Board) (g : Guid) : Input → Option Collision
  | .event (.collision c) now =>
    if b.occupant? c.carId = some g then some (b.recorded {} c now) else none
  | _ => none

/-- An input adds the collision that the driver has with it, and no other. -/
theorem collisions_recordWith (b : Board) (g : Guid) (d : Driver) (i : Input) :
    (b.recordWith g d i).collisions =
      (b.hitOf? g i).toList.foldl Collision.added d.collisions := by
  cases i with
  | event ev now =>
      rw [recordWith]
      cases ev with
      | collision c =>
          show (if b.occupant? c.carId = some g then d.collide (b.recorded d c now) else d).collisions
            = _
          rw [hitOf?]
          split
          · rw [Option.toList_some, List.foldl_cons, List.foldl_nil, Collision.added,
              ← d.nextCollisionId_eq]
            rfl
          · rfl
      | clientLoaded car =>
          split
          · show (d.load now).collisions = d.collisions
            rw [Driver.load]
            split <;> rfl
          · rfl
      | _ => split <;> rfl
  | tick t now => rfl
  | reset => rfl

end Board

namespace Engine

variable {e : Engine} {g : Guid} {d : Driver} {inputs : List Input}

/-- **A RUN ADDS THE COLLISIONS OF A DRIVER**, one after the other and no others, while nobody comes
or goes. -/
theorem collisions_of_run (hd : e.board.connected.get? g = some d)
    (hall : ∀ i ∈ inputs, i.onTrack = true) :
    ∃ r, (e.run inputs).board.connected.get? g = some r ∧
      r.collisions =
        (e.gather (fun b => b.hitOf? g) inputs).foldl Collision.added d.collisions := by
  induction inputs generalizing e d with
  | nil => exact ⟨d, hd, rfl⟩
  | cons i inputs ih =>
      obtain ⟨n, hone, -⟩ := exists_record_react hd (hall i List.mem_cons_self)
      obtain ⟨r, hr, hcollisions⟩ := ih hone fun j hj => hall j (List.mem_cons_of_mem _ hj)
      refine ⟨r, hr, ?_⟩
      rw [hcollisions, gather, List.foldl_append, ← e.board.collisions_recordWith]

/-- **THE NEWEST TWENTY, UNDER FRESH NUMBERS**: let a driver be connected, with any history, and let
a run bring any events and jobs with which nobody comes or goes. Then the driver is still connected,
and the history is the end of the old one followed by the collisions that the driver has in the run,
in their order and as they come in. They are numbered one by one, from the number after the greatest
of the old history on. Without such collisions the history stays as it is, however long it may be. -/
theorem history_of_run (hd : e.board.connected.get? g = some d)
    (hall : ∀ i ∈ inputs, i.onTrack = true)
    (hroom : Collision.nextNumber d.collisions + (e.gather (fun b => b.hitOf? g) inputs).length ≤
      UInt32.size) :
    let hits := e.gather (fun b => b.hitOf? g) inputs
    let first := Collision.nextNumber d.collisions
    (∀ c ∈ d.collisions, c.id.toNat < first) ∧
    ∃ r new, (e.run inputs).board.connected.get? g = some r ∧
      new.map (·.id.toNat) = List.range' first hits.length ∧
      new.map (fun c => { c with id := 0 }) = hits.map (fun c => { c with id := 0 }) ∧
      (hits ≠ [] → r.collisions = (d.collisions ++ new).rtake 20) ∧
      (hits = [] → r.collisions = d.collisions) := by
  intro hits first
  obtain ⟨r, hr, hcollisions⟩ := collisions_of_run hd hall
  refine ⟨fun c => Collision.lt_nextNumber, r, Collision.numberedFrom first hits, hr,
    Collision.toNat_ids_numberedFrom hroom,
    Collision.map_numberedFrom _ (fun _ _ => rfl) first hits, ?_, ?_⟩
  · intro hsome
    rw [hcollisions]
    exact Collision.foldl_added hsome hroom
  · intro hnone
    rw [hcollisions]
    exact congrArg (List.foldl Collision.added d.collisions) hnone

/-- A snapshot brings a history of twenty-one collisions, the greatest number first. It gives way to
the next collision, and the numbers go on from it all the same. -/
theorem history_of_run_past_the_greatest :
    let ann : CarInfo := { carId := 1, guid := ⟨"a"⟩, model := "m3" }
    let old : List Collision := { id := 30 } :: (List.range 20).map (fun n => { id := .ofNat n })
    let d : Driver := { car := ann, collisions := old }
    let s : Snapshot :=
      { connected := some { drivers := ⟨[(⟨"a"⟩, d)], by decide⟩ }
        cars := ⟨[(1, ⟨"a"⟩)], by decide⟩ }
    let e := initial.run [.event (.snapshot s) .zero]
    let hit : Input := .event (.collision { carId := 1, impact := .environment }) .zero
    let inputs := [hit, .event (.carUpdate { carId := 1 }) .zero, .tick .standings .zero, hit]
    e.Reachable ∧ e.board.connected.get? ⟨"a"⟩ = some d ∧ (∀ i ∈ inputs, i.onTrack = true) ∧
      Collision.nextNumber d.collisions = 31 ∧
      (e.gather (fun b => b.hitOf? ⟨"a"⟩) inputs).length = 2 ∧
      ∃ r, (e.run inputs).board.connected.get? ⟨"a"⟩ = some r ∧
        r.collisions.map (·.id.toNat) = List.range' 2 18 ++ [31, 32] := by
  intro ann old d s e hit inputs
  have hd : e.board.connected.get? ⟨"a"⟩ = some d := by decide +kernel
  have hall : ∀ i ∈ inputs, i.onTrack = true := by
    simp [inputs, hit, Input.onTrack, Event.rearranges]
  have hfirst : Collision.nextNumber d.collisions = 31 := by decide +kernel
  have hlength : (e.gather (fun b => b.hitOf? ⟨"a"⟩) inputs).length = 2 := by decide +kernel
  obtain ⟨-, r, new, hr, hids, -, hkept, -⟩ :=
    history_of_run hd hall (by rw [hfirst, hlength]; decide)
  rw [hfirst, hlength] at hids
  refine ⟨⟨_, rfl⟩, hd, hall, hfirst, hlength, r, hr, ?_⟩
  have hnumbers : (d.collisions ++ new).map (·.id.toNat) = 30 :: List.range 20 ++ [31, 32] := by
    rw [List.map_append, hids]
    decide
  rw [hkept fun hnone => by simp [hnone] at hlength, List.rtake, List.map_drop, hnumbers,
    ← List.length_map (·.id.toNat), hnumbers]
  decide

end Engine

end Pitwall
