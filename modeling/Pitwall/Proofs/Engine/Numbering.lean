import Pitwall.Proofs.Engine.Interleaving
import Pitwall.Proofs.Feed.Numbers

/-!
# Numbering — which collisions are announced

A collision is numbered after those on the record of the driver, and it is announced unless its
number counts as announced already. So record and alerts have to agree on how far the driver's count
has come (**`Engine.InCount`**). Almost everything keeps them in agreement; they fall apart when a
record takes the place of one that knew more (**`Engine.KeepsCount`**): when a driver comes back
whose history has been given up, or by a snapshot. Then numbers are given out again, and a
collision with such a number is recorded and not announced: **`Engine.announces_collision`**.
-/

namespace Pitwall

/-! ## The count on a record -/

namespace Driver

/-- The record has counted as far as the numbers go. -/
def Recalls (d : Driver) (numbers : List UInt32) : Prop := ∀ n ∈ numbers, ∃ c ∈ d.collisions, n ≤ c.id

/-- There is a number left for one more collision. -/
def HasNumberLeft (d : Driver) : Prop := ∀ c ∈ d.collisions, c.id.toNat + 1 < UInt32.size

-- through the list: there are too many numbers to go through them all
instance (d : Driver) (numbers : List UInt32) : Decidable (d.Recalls numbers) :=
  List.decidableBAll (fun n => ∃ c ∈ d.collisions, n ≤ c.id) numbers

instance (d : Driver) : Decidable d.HasNumberLeft :=
  inferInstanceAs (Decidable (∀ c ∈ d.collisions, _))

/-- The next number is greater than all on record. -/
theorem lt_nextCollisionId {d : Driver} (h : d.HasNumberLeft) {c : Collision}
    (hc : c ∈ d.collisions) : c.id < d.nextCollisionId := by
  have hmem : c.id ∈ d.collisions.map Collision.id := List.mem_map_of_mem hc
  rw [nextCollisionId]
  cases hmax : (d.collisions.map Collision.id).max? with
  | none =>
      rw [List.max?_eq_none_iff.1 hmax] at hmem
      cases hmem
  | some top =>
      obtain ⟨htop, hle⟩ := List.max?_eq_some_iff.1 hmax
      obtain ⟨k, hk, rfl⟩ := List.mem_map.1 htop
      have hroom : (k.id + 1).toNat = k.id.toNat + 1 := by
        rw [UInt32.toNat_add]
        exact Nat.mod_eq_of_lt (h k hk)
      have hcle : c.id.toNat ≤ k.id.toNat := UInt32.le_iff_toNat_le.1 (hle c.id hmem)
      show c.id < k.id + 1
      rw [UInt32.lt_iff_toNat_lt, hroom]
      exact Nat.lt_succ_of_le hcle

/-- So it is greater than all numbers that the record has counted. -/
theorem Recalls.lt_nextCollisionId {d : Driver} {numbers : List UInt32} (h : d.Recalls numbers)
    (hroom : d.HasNumberLeft) : ∀ n ∈ numbers, n < d.nextCollisionId := by
  intro n hn
  obtain ⟨c, hc, hle⟩ := h n hn
  exact UInt32.lt_of_le_of_lt hle (Driver.lt_nextCollisionId hroom hc)

/-- The last collision is always kept. -/
theorem getLast?_collide (d : Driver) (c : Collision) :
    (d.collide c).collisions.getLast? = some c := by
  have hlength : (d.collisions ++ [c]).length = d.collisions.length + 1 := List.length_append
  have hdrop : (d.collisions ++ [c]).length - collisionHistory ≤ d.collisions.length := by
    rw [hlength, collisionHistory]
    omega
  show (List.drop _ (d.collisions ++ [c])).getLast? = some c
  rw [List.drop_append_of_le_length hdrop, List.getLast?_concat]

/-- A record that counts on from the numbers it has counted still has counted them. -/
theorem Recalls.collide {d : Driver} {numbers : List UInt32} (h : d.Recalls numbers)
    (hroom : d.HasNumberLeft) {r : Collision} (hr : r.id = d.nextCollisionId) :
    (d.collide r).Recalls (r.id :: numbers) := by
  have hlast : r ∈ (d.collide r).collisions := List.mem_of_getLast? (d.getLast?_collide r)
  intro n hn
  refine ⟨r, hlast, ?_⟩
  rcases List.mem_cons.1 hn with rfl | hn
  · exact UInt32.le_refl _
  · rw [hr]
    exact UInt32.le_of_lt (h.lt_nextCollisionId hroom n hn)

end Driver

/-! ## What is on record of the connected drivers -/

namespace Board

/-- The collisions on record of a connected driver. -/
def collisionsOf? (b : Board) (g : Guid) : Option (List Collision) :=
  (b.connected.get? g).map Driver.collisions

/-- Setting a record to one with the same collisions does not show in them. -/
theorem collisionsOf?_setDriver {b : Board} {g : Guid} {d r : Driver}
    (hd : b.connected.get? g = some d) (hr : r.collisions = d.collisions) :
    (b.setDriver g r).collisionsOf? = b.collisionsOf? := by
  funext a
  rw [collisionsOf?, collisionsOf?, get?_setDriver]
  split
  · next ha =>
    rw [ha, hd]
    exact congrArg some hr
  · rfl

theorem collisionsOf?_foldl_raiseLaps (b : Board) (lines : List LeaderboardLine) :
    (lines.foldl raiseLaps b).collisionsOf? = b.collisionsOf? := by
  induction lines generalizing b with
  | nil => rfl
  | cons line lines ih =>
      have hstep : (b.raiseLaps line).collisionsOf? = b.collisionsOf? := by
        rw [raiseLaps]
        split
        · rfl
        · next key d hat => exact collisionsOf?_setDriver (atCar?_eq_some_iff.1 hat).2 rfl
      rw [List.foldl_cons, ih, hstep]

/-- The collision as it is recorded with a driver. -/
def recorded (b : Board) (d : Driver) (c : CollisionReport) (now : Instant) : Collision :=
  let other := c.otherCarId.bind b.driverByCar?
  { id := d.nextCollisionId
    impact := c.impact
    time := now
    otherGuid := other.map Driver.guid
    otherName := other.map (·.car.driverName)
    speed := c.speed.convert
    damage := c.damage }

/-- The records that an input brings without going on from those that are connected: the ones of a
snapshot, and that of a driver who comes. -/
def brings (b : Board) : Input → List (Guid × Driver)
  | .event (.snapshot s) _ => (ofSnapshot s).connected.entries
  | .event (.newConnection car) now =>
    if b.connected.contains car.guid then [] else [(car.guid, b.arriving car now)]
  | _ => []

/-- The driver who has a collision with an input. -/
def collider? (b : Board) : Input → Option (Guid × Driver)
  | .event (.collision c) _ => b.atCar? c.carId
  | _ => none

/-- An alert of a board is about a collision on record. -/
theorem mem_collisionAlerts {b : Board} {x : Alert} (hx : x ∈ b.collisionAlerts) :
    ∃ d, b.connected.get? x.guid = some d ∧ x.collision ∈ d.collisions := by
  obtain ⟨e, he, hx⟩ := List.mem_flatMap.1 hx
  obtain ⟨c, hc, rfl⟩ := List.mem_map.1 hx
  exact ⟨e.2, Keyed.get?_eq_some_iff.2 he, hc⟩

end Board

namespace Engine

/-- Neither the collisions on record nor the alerts have changed. -/
structure SameCollisions (e f : Engine) : Prop where
  records : f.board.collisionsOf? = e.board.collisionsOf?
  alerts : f.alerts = e.alerts

theorem SameCollisions.withCar {e : Engine} {car : CarId} {f : Guid → Driver → Engine × Outcome}
    (hf : ∀ g d, e.board.connected.get? g = some d → e.SameCollisions (f g d).1) :
    e.SameCollisions (e.withCar car f).1 := by
  refine withCar_induction (P := fun p => e.SameCollisions p.1) ⟨rfl, rfl⟩ ?_
  intro g d hat
  exact hf g d (Board.atCar?_eq_some_iff.1 hat).2

/-- Apart from collisions, no event on the track has to do with any. -/
theorem sameCollisions_merge {e : Engine} {ev : Event} (hev : ev.rearranges = false)
    (hcoll : ∀ c, ev ≠ .collision c) (now : Instant) : e.SameCollisions (e.merge now ev).1 := by
  cases ev with
  | snapshot s => cases hev
  | newConnection car => cases hev
  | connectionClosed car => cases hev
  | collision c => exact absurd rfl (hcoll c)
  | clientLoaded car =>
      refine SameCollisions.withCar fun g d hd => ⟨?_, rfl⟩
      have hload : (d.load now).collisions = d.collisions := by
        rw [Driver.load]
        split <;> rfl
      exact Board.collisionsOf?_setDriver hd hload
  | carUpdate t =>
      exact SameCollisions.withCar fun g d hd => ⟨Board.collisionsOf?_setDriver hd rfl, rfl⟩
  | lapCompleted l =>
      refine SameCollisions.withCar fun g d hd => ⟨?_, rfl⟩
      exact (Board.collisionsOf?_foldl_raiseLaps _ _).trans (Board.collisionsOf?_setDriver hd rfl)
  | splitCompleted s =>
      exact SameCollisions.withCar fun g d hd => ⟨Board.collisionsOf?_setDriver hd rfl, rfl⟩
  | tyresChanged car =>
      exact SameCollisions.withCar fun g d hd => ⟨Board.collisionsOf?_setDriver hd rfl, rfl⟩
  | chat m => exact ⟨rfl, rfl⟩
  | newSession s => exact ⟨rfl, rfl⟩
  | sessionInfo s => exact ⟨rfl, rfl⟩
  | endSession file => exact ⟨rfl, rfl⟩
  | serverError text => exact ⟨rfl, rfl⟩
  | ignored tag => exact ⟨rfl, rfl⟩

/-- A collision is recorded with the driver and offered to the alerts. -/
theorem collide_of_atCar? {e : Engine} {c : CollisionReport} {g : Guid} {d : Driver}
    (hd : e.board.atCar? c.carId = some (g, d)) (now : Instant) :
    let r := e.board.recorded d c now
    (e.collide c now).1 =
      { e with
        board := e.board.setDriver g (d.collide r)
        alerts := (e.alerts.offer ⟨d.guid, d.car.driverName, r⟩ now).1 } := by
  intro r
  rw [collide, withCar_of_atCar? hd]
  rfl

/-- With an event the alerts are offered its collision or those of its snapshot, or they stay as they
are. -/
theorem alerts_merge_induction {e : Engine} {now : Instant} {ev : Event} {P : Alerts → Prop}
    (h : P e.alerts)
    (hcollision : ∀ c d, ev = .collision c →
      P (e.alerts.offer ⟨d.guid, d.car.driverName, e.board.recorded d c now⟩ now).1)
    (hsnapshot : ∀ s, ev = .snapshot s →
      P (e.alerts.offerAll (e.resync s now).1.board.collisionAlerts now).1) :
    P (e.merge now ev).1.alerts := by
  by_cases hcoll : ∃ c, ev = .collision c
  · obtain ⟨c, rfl⟩ := hcoll
    exact withCar_induction (P := fun p => P p.1.alerts) h fun _ d _ => hcollision c d rfl
  · by_cases hev : ev.rearranges = false
    · rw [(sameCollisions_merge hev (fun c hc => hcoll ⟨c, hc⟩) now).alerts]
      exact h
    · cases ev with
      | snapshot s => exact hsnapshot s rfl
      | newConnection car => exact h
      | connectionClosed car =>
          exact disconnect_induction (P := fun p => P p.1.alerts) h (fun _ _ => h) fun _ _ => h
      | _ => exact absurd rfl hev

/-- With an input they may also be swept, or given up. -/
theorem alerts_react_induction {e : Engine} {i : Input} {P : Alerts → Prop} (hempty : P {})
    (h : P e.alerts)
    (hcollision : ∀ c d now, i = .event (.collision c) now →
      P (e.alerts.offer ⟨d.guid, d.car.driverName, e.board.recorded d c now⟩ now).1)
    (hsnapshot : ∀ s now, i = .event (.snapshot s) now →
      P (e.alerts.offerAll (e.resync s now).1.board.collisionAlerts now).1)
    (hsweep : ∀ now, P (e.alerts.sweep now).1) : P (e.react i).1.alerts := by
  cases i with
  | event ev now =>
      refine alerts_merge_induction (e := { e with lastAppliedAt := some now }) h ?_ ?_
      · rintro c d rfl
        exact hcollision c d now rfl
      · rintro s rfl
        exact hsnapshot s now rfl
  | tick t now =>
      show P (e.tick t now).1.alerts
      simp only [tick]
      split
      · exact h
      · cases t with
        | progress => exact h
        | standings => exact h
        | feeds => exact hsweep now
  | reset => exact hempty

/-- Alerts are in order in every state. -/
theorem Reachable.sound {e : Engine} (h : e.Reachable) : e.alerts.Sound := by
  refine h.induction (I := fun e => e.alerts.Sound) Alerts.sound_empty ?_
  intro e i he
  exact alerts_react_induction Alerts.sound_empty he (fun _ _ now _ => he.offer _ now)
    (fun _ now _ => he.offerAll _ now) he.sweep

/-! ## Keeping count -/

/-- The record of every connected driver has counted all collisions of the driver that are held. -/
def InCount (e : Engine) : Prop :=
  ∀ g d, e.board.connected.get? g = some d → d.Recalls (e.alerts.numbersOf g)

/-- With this input no count is lost. -/
structure KeepsCount (e : Engine) (i : Input) : Prop where
  /-- The records that it brings have counted the collisions that are held. -/
  recalled : ∀ p ∈ e.board.brings i, p.2.Recalls (e.alerts.numbersOf p.1)
  /-- There is a number left for the collision. -/
  room : ∀ p ∈ e.board.collider? i, p.2.HasNumberLeft

/-- No input of a run loses count. -/
def KeepsCountIn (e : Engine) : List Input → Prop
  | [] => True
  | i :: inputs => e.KeepsCount i ∧ (e.react i).1.KeepsCountIn inputs

instance (e : Engine) (i : Input) : Decidable (e.KeepsCount i) :=
  decidable_of_iff ((∀ p ∈ e.board.brings i, p.2.Recalls (e.alerts.numbersOf p.1)) ∧
      ∀ p ∈ e.board.collider? i, p.2.HasNumberLeft)
    ⟨fun ⟨hrecalled, hroom⟩ => ⟨hrecalled, hroom⟩, fun h => ⟨h.recalled, h.room⟩⟩

instance decidableKeepsCountIn (e : Engine) : (inputs : List Input) → Decidable (e.KeepsCountIn inputs)
  | [] => isTrue trivial
  | i :: inputs =>
    have := decidableKeepsCountIn (e.react i).1 inputs
    inferInstanceAs (Decidable (_ ∧ _))

/-- The count is kept where connected drivers keep their collisions and no more alerts are held. -/
theorem InCount.of_fewer {e f : Engine} (h : e.InCount)
    (hrecords : ∀ g cs, f.board.collisionsOf? g = some cs → e.board.collisionsOf? g = some cs)
    (halerts : ∀ g n, n ∈ f.alerts.numbersOf g → n ∈ e.alerts.numbersOf g) : f.InCount := by
  intro g d hd n hn
  have hcs : f.board.collisionsOf? g = some d.collisions := congrArg (Option.map _) hd
  obtain ⟨d', hd', hsame⟩ := Option.map_eq_some_iff.1 (hrecords g _ hcs)
  rw [← hsame]
  exact h g d' hd' n (halerts g n hn)

theorem InCount.resync {e : Engine} (hsound : e.alerts.Sound) {s : Snapshot}
    (hs : ∀ p ∈ (Board.ofSnapshot s).connected.entries, p.2.Recalls (e.alerts.numbersOf p.1))
    (now : Instant) : (e.resync s now).1.InCount := by
  intro g d hd n hn
  obtain ⟨x, hx, hid⟩ := Alerts.mem_numbersOf.1 hn
  obtain rfl : x.guid = g := congrArg AlertId.guid hid
  obtain rfl : x.collision.id = n := congrArg AlertId.number hid
  rcases hsound.mem_held_offerAll hx with hheld | hoffered
  · have hconn : (Board.ofSnapshot s).connected.get? x.guid = some d := by
      rw [← Board.connected_takeOverMarkers (Board.ofSnapshot s) e.board.markers]
      exact hd
    exact hs _ (Keyed.get?_eq_some_iff.1 hconn) _ (Alerts.mem_numbersOf.2 ⟨x, hheld, rfl⟩)
  · -- what the snapshot itself offers is on its records
    obtain ⟨d', hd', hc⟩ := Board.mem_collisionAlerts hoffered
    obtain rfl : d' = d := Option.some.inj (hd'.symm.trans hd)
    exact ⟨x.collision, hc, UInt32.le_refl _⟩

theorem InCount.connect {e : Engine} (h : e.InCount) {car : CarInfo} {now : Instant}
    (hcar : e.KeepsCount (.event (.newConnection car) now)) : (e.connect car now).1.InCount := by
  intro g d hd
  have hjoined : (e.board.connect car now).connected.get? g = some d := hd
  rw [Board.get?_connected_connect] at hjoined
  split at hjoined
  · next hg =>
    subst hg
    obtain rfl := Option.some.inj hjoined
    show (e.board.joining car now).Recalls (e.alerts.numbersOf car.guid)
    cases hc : e.board.connected.get? car.guid with
    | none =>
        have habsent : e.board.connected.contains car.guid = false := by
          rw [Keyed.contains_eq_isSome, hc]
          rfl
        rw [Board.joining, hc]
        refine hcar.recalled (car.guid, e.board.arriving car now) ?_
        rw [Board.brings, habsent]
        exact List.mem_singleton_self _
    | some d =>
        -- who is connected already keeps the collisions
        have hsame : (e.board.joining car now).collisions = d.collisions := by
          rw [Board.joining, hc]
          show (d.addSheet car).collisions = d.collisions
          rw [Driver.addSheet]
          split <;> rfl
        intro n hn
        rw [hsame]
        exact h car.guid d hc n hn
  · exact h g d hjoined

theorem InCount.disconnect {e : Engine} (h : e.InCount) (g : Guid) :
    (e.disconnect g).1.InCount := by
  -- who stays has been there before, with the same record
  have hrest : ∀ a d, (e.board.connected.erase g).get? a = some d →
      d.Recalls (e.alerts.numbersOf a) := by
    intro a d hd
    rw [Keyed.get?_erase] at hd
    split at hd
    · cases hd
    · exact h a d hd
  exact disconnect_induction (P := fun p => p.1.InCount) h (fun _ _ => hrest) fun _ _ => hrest

theorem InCount.collide {e : Engine} (h : e.InCount) (hsound : e.alerts.Sound)
    (own : e.board.GuidsOwn) {c : CollisionReport}
    (hc : ∀ p ∈ e.board.atCar? c.carId, p.2.HasNumberLeft) (now : Instant) :
    (e.collide c now).1.InCount := by
  cases hat : e.board.atCar? c.carId with
  | none =>
      rw [Engine.collide, withCar, hat]
      exact h
  | some p =>
      obtain ⟨g, d⟩ := p
      have hget : e.board.connected.get? g = some d := (Board.atCar?_eq_some_iff.1 hat).2
      obtain rfl : d.guid = g := own g d hget
      let r := e.board.recorded d c now
      have hcounted : (d.collide r).Recalls (r.id :: e.alerts.numbersOf d.guid) :=
        (h d.guid d hget).collide (hc _ hat) rfl
      rw [collide_of_atCar? hat]
      intro a d' hd' n hn
      have hnumber := hsound.mem_numbersOf_offer hn
      have hset : (e.board.setDriver d.guid (d.collide r)).connected.get? a = some d' := hd'
      rw [Board.get?_setDriver] at hset
      split at hset
      · next ha =>
        subst ha
        rw [hget] at hset
        obtain rfl : d.collide r = d' := Option.some.inj hset
        refine hcounted n ?_
        rcases hnumber with hold | hnew
        · exact List.mem_cons_of_mem _ hold
        · have hn : r.id = n := congrArg AlertId.number hnew
          exact List.mem_cons.2 (Or.inl hn.symm)
      · next ha =>
        rcases hnumber with hold | hnew
        · exact h a d' hset n hold
        · exact absurd (congrArg AlertId.guid hnew).symm ha

theorem InCount.merge {e : Engine} (h : e.InCount) (hsound : e.alerts.Sound)
    (own : e.board.GuidsOwn) {ev : Event} {now : Instant} (hev : e.KeepsCount (.event ev now)) :
    (e.merge now ev).1.InCount := by
  by_cases hdrive : ev.rearranges = false
  · by_cases hcoll : ∃ c, ev = .collision c
    · obtain ⟨c, rfl⟩ := hcoll
      exact h.collide hsound own hev.room now
    · obtain ⟨hrecords, halerts⟩ :=
        sameCollisions_merge (e := e) hdrive (fun c hc => hcoll ⟨c, hc⟩) now
      refine h.of_fewer ?_ ?_
      · intro g cs hcs
        rw [← hrecords]
        exact hcs
      · intro g n hn
        rw [← halerts]
        exact hn
  · cases ev with
    | snapshot s => exact InCount.resync hsound hev.recalled now
    | newConnection car => exact h.connect hev
    | connectionClosed car => exact h.disconnect car.guid
    | _ => exact absurd rfl hdrive

theorem InCount.tick {e : Engine} (h : e.InCount) (t : Tick) (now : Instant) :
    (e.tick t now).1.InCount := by
  simp only [Engine.tick]
  split
  · exact h
  · cases t with
    | progress => exact h
    | standings =>
        -- sorting moves records and changes none
        intro g d hd
        have hsorted : (e.board.connected.arrange _).get? g = some d := hd
        rw [Keyed.get?_arrange] at hsorted
        exact h g d hsorted
    | feeds =>
        exact h.of_fewer (fun _ _ hcs => hcs) fun _ _ hn => Alerts.mem_numbersOf_of_sweep hn

/-- **ONE INPUT KEEPS COUNT**, if what it brings does. -/
theorem InCount.react {e : Engine} (h : e.InCount) (he : e.Reachable) {i : Input}
    (hi : e.KeepsCount i) : (e.react i).1.InCount := by
  cases i with
  | event ev now =>
      have hi : { e with lastAppliedAt := some now }.KeepsCount (.event ev now) := ⟨hi.recalled, hi.room⟩
      exact InCount.merge (e := { e with lastAppliedAt := some now }) h he.sound he.filed.own hi
  | tick t now => exact h.tick t now
  | reset => exact fun _ _ hd => nomatch hd

/-- **A RUN KEEPS COUNT**, if all its inputs do. -/
theorem InCount.run {e : Engine} (h : e.InCount) (he : e.Reachable) {inputs : List Input}
    (hall : e.KeepsCountIn inputs) : (e.run inputs).InCount := by
  induction inputs generalizing e with
  | nil => exact h
  | cons i inputs ih =>
      rw [run_cons]
      exact ih (h.react he hall.1) (he.react i) hall.2

/-! ## Announcing collisions -/

/-- **A COLLISION IS ANNOUNCED EXACTLY IF ITS NUMBER IS NEW**: a collision of a connected driver, in
any state that can be reached, is the last one on the record of the driver, with the next number and
the time of the event. If no collision of the driver with this number is held, it is announced, and
otherwise nothing is. In a run that has not lost count the number is always new. -/
theorem announces_collision {inputs : List Input} {c : CollisionReport} {g : Guid} {d : Driver}
    (hd : (initial.run inputs).board.atCar? c.carId = some (g, d)) (now : Instant) :
    let e := initial.run inputs
    let after := (e.apply (.collision c) now).1
    ∃ d' r, after.board.connected.get? g = some d' ∧ d'.collisions.getLast? = some r ∧
      r.id = d.nextCollisionId ∧ r.time = now ∧
      (e.alerts.Announces after.alerts g r ↔ r.id ∉ e.alerts.numbersOf g) ∧
      (r.id ∈ e.alerts.numbersOf g → after.alerts = e.alerts) ∧
      (initial.KeepsCountIn inputs → d.HasNumberLeft → e.alerts.Announces after.alerts g r) := by
  intro e after
  have he : e.Reachable := ⟨inputs, rfl⟩
  have hget : e.board.connected.get? g = some d := (Board.atCar?_eq_some_iff.1 hd).2
  obtain rfl : d.guid = g := he.filed.own g d hget
  let r := e.board.recorded d c now
  have hafter : after = { e with
      lastAppliedAt := some now
      board := e.board.setDriver d.guid (d.collide r)
      alerts := (e.alerts.offer ⟨d.guid, d.car.driverName, r⟩ now).1 } :=
    collide_of_atCar? (e := { e with lastAppliedAt := some now }) hd now
  obtain ⟨hnew, hold⟩ := he.sound.announces_offer ⟨d.guid, d.car.driverName, r⟩
  rw [hafter]
  refine ⟨d.collide r, r, ?_, d.getLast?_collide r, rfl, rfl, hnew, hold, ?_⟩
  · show (e.board.setDriver d.guid (d.collide r)).connected.get? d.guid = _
    rw [Board.get?_setDriver, if_pos rfl, hget]
    rfl
  · intro hkept hroom
    have hinit : initial.InCount := fun _ _ hd => nomatch hd
    have hcount : e.InCount := hinit.run ⟨[], rfl⟩ hkept
    refine hnew.2 fun hmem => ?_
    -- the next number is greater than all that are held
    exact UInt32.lt_irrefl _ ((hcount d.guid d hget).lt_nextCollisionId hroom _ hmem)

/-- A driver has a collision, leaves after a usable stint, comes back and has another one: the count
goes on. -/
theorem announces_collision_after_return :
    let now : Instant := ⟨63000000000, 0, by decide, by decide, by decide, by decide⟩
    let car : CarInfo := { carId := 1, driverName := "Ann", guid := ⟨"a"⟩, model := "m3" }
    let hit : CollisionReport := { carId := 1, impact := .environment }
    let inputs : List Input :=
      [.event (.newConnection car) now, .event (.clientLoaded 1) now,
       .event (.lapCompleted { carId := 1, millis := 80000 }) now, .event (.collision hit) now,
       .event (.connectionClosed car) now, .event (.newConnection car) now]
    let e := initial.run inputs
    let after := (e.apply (.collision hit) now).1
    ∃ d, e.board.atCar? 1 = some (⟨"a"⟩, d) ∧ initial.KeepsCountIn inputs ∧ d.HasNumberLeft ∧
      e.alerts.numbersOf ⟨"a"⟩ = [0] ∧
      ∃ r, r.id = 1 ∧ r.time = now ∧ e.alerts.Announces after.alerts ⟨"a"⟩ r := by
  intro now car hit inputs e after
  have hkept : initial.KeepsCountIn inputs := by decide +kernel
  obtain ⟨⟨g, d⟩, hd, hg, hroom, hnext⟩ : ∃ p ∈ e.board.atCar? 1,
      p.1 = ⟨"a"⟩ ∧ p.2.HasNumberLeft ∧ p.2.nextCollisionId = 1 := by decide +kernel
  have hheld : e.alerts.numbersOf ⟨"a"⟩ = [0] := by decide +kernel
  clear_value inputs
  subst hg
  obtain ⟨d', r, -, -, hid, htime, -, -, hann⟩ := announces_collision (c := hit) hd now
  exact ⟨d, hd, hkept, hroom, hheld, r, hid.trans hnext, htime, hann hkept hroom⟩

/-- It is not true that every collision is announced: a driver has a collision, leaves before
completing a lap and comes back. The history has been given up, so the next collision gets the number
of the first one, which is still held. -/
theorem not_announced_after_purge :
    ¬ ∀ (e : Engine) (c : CollisionReport) (g : Guid) (d : Driver) (now : Instant), e.Reachable →
      e.board.atCar? c.carId = some (g, d) → d.HasNumberLeft →
      let after := (e.apply (.collision c) now).1
      ∃ d' r, after.board.connected.get? g = some d' ∧ d'.collisions.getLast? = some r ∧
        r.time = now ∧ e.alerts.Announces after.alerts g r := by
  intro hall
  let noon : Instant := ⟨63000000000, 0, by decide, by decide, by decide, by decide⟩
  let soon : Instant := ⟨63000000003, 0, by decide, by decide, by decide, by decide⟩
  let car : CarInfo := { carId := 1, driverName := "Ann", guid := ⟨"a"⟩, model := "m3" }
  let hit : CollisionReport := { carId := 1, impact := .environment }
  let e := initial.run
    [.event (.newConnection car) noon, .event (.collision hit) noon,
     .event (.connectionClosed car) noon, .event (.newConnection car) soon]
  have he : e.Reachable := ⟨_, rfl⟩
  obtain ⟨⟨g, d⟩, hd, hg, hroom⟩ : ∃ p ∈ e.board.atCar? 1, p.1 = ⟨"a"⟩ ∧ p.2.HasNumberLeft := by
    decide +kernel
  have hheld : 0 ∈ e.alerts.numbersOf ⟨"a"⟩ := by decide +kernel
  have hnumbers : ∀ d' ∈ (e.apply (.collision hit) soon).1.board.connected.get? ⟨"a"⟩,
      ∀ r ∈ d'.collisions.getLast?, r.id = 0 := by decide +kernel
  clear_value e
  subst hg
  obtain ⟨d', r, hd', hr, -, hann⟩ := hall e hit ⟨"a"⟩ d soon he hd hroom
  obtain ⟨x, hx, hid⟩ := Alerts.mem_numbersOf.1 hheld
  have hsame : x.collision.id = r.id := by
    rw [hnumbers d' hd' r hr]
    exact congrArg AlertId.number hid
  exact hann.fresh x hx (congrArg AlertId.guid hid) hsame

end Engine

end Pitwall
