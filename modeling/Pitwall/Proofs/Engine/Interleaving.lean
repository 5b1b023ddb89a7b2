import Pitwall.Proofs.Board.Peers
import Pitwall.Proofs.Engine.Filed

/-!
# Interleaving — events of different drivers do not depend on each other's order

An event on the track, apart from a completed lap, is about the driver in one place: it sets the
record of that driver, may change the driver's marker, and reads no more of the others than
what driving does not change (**`Board.follow_comm`**). So if two drivers have a sequence of such
events each, it does not matter how the two are merged: **`Engine.run_interleaving`**.
-/

namespace Pitwall

/-- Two lists are merged into one; each keeps its order. -/
inductive Interleaving {α : Type} : List α → List α → List α → Prop where
  | nil : Interleaving [] [] []
  /-- The next one comes from the first list. -/
  | left (x : α) {xs ys zs : List α} : Interleaving xs ys zs → Interleaving (x :: xs) ys (x :: zs)
  /-- The next one comes from the second list. -/
  | right (y : α) {xs ys zs : List α} : Interleaving xs ys zs → Interleaving xs (y :: ys) (y :: zs)

namespace Interleaving

variable {α β : Type} {xs ys zs : List α}

theorem map (f : α → β) (h : Interleaving xs ys zs) :
    Interleaving (xs.map f) (ys.map f) (zs.map f) := by
  induction h with
  | nil => exact .nil
  | left x _ ih => exact .left (f x) ih
  | right y _ ih => exact .right (f y) ih

/-- What is merged comes from one of the two. -/
theorem mem_or_mem (h : Interleaving xs ys zs) {z : α} (hz : z ∈ zs) : z ∈ xs ∨ z ∈ ys := by
  induction h with
  | nil => exact Or.inl hz
  | left x _ ih =>
      rcases List.mem_cons.1 hz with rfl | hz
      · exact Or.inl List.mem_cons_self
      · exact (ih hz).imp_left (List.mem_cons_of_mem x)
  | right y _ ih =>
      rcases List.mem_cons.1 hz with rfl | hz
      · exact Or.inr List.mem_cons_self
      · exact (ih hz).imp_right (List.mem_cons_of_mem y)

end Interleaving

/-! ## One event -/

/-- The markers after that of a driver has been changed, if it has. -/
def remark (markers : Table Guid Marker) (d : Driver) :
    Option (Marker → Marker) → Table Guid Marker
  | none => markers
  | some f => markers.insert d.guid (f ((markers.get? d.guid).getD (.ofCar d.car)))

theorem get?_remark_of_ne (markers : Table Guid Marker) {d : Driver} (f : Option (Marker → Marker))
    {g : Guid} (hg : d.guid ≠ g) : (remark markers d f).get? g = markers.get? g := by
  cases f with
  | none => rfl
  | some f =>
      show (Table.insert _ _ _).get? g = _
      rw [Table.get?_insert, if_neg hg]

/-- What becomes of a marker comes from that marker alone. -/
theorem get?_remark_congr {markers others : Table Guid Marker} {d : Driver}
    (f : Option (Marker → Marker)) (h : markers.get? d.guid = others.get? d.guid) :
    (remark markers d f).get? d.guid = (remark others d f).get? d.guid := by
  cases f with
  | none => exact h
  | some f =>
      show (Table.insert _ _ _).get? _ = (Table.insert _ _ _).get? _
      rw [Table.get?_insert, Table.get?_insert, if_pos rfl, if_pos rfl, h]

theorem remark_comm (markers : Table Guid Marker) {d c : Driver} (hdc : d.guid ≠ c.guid)
    (f k : Option (Marker → Marker)) :
    remark (remark markers d f) c k = remark (remark markers c k) d f := by
  refine Table.ext_get? fun g => ?_
  by_cases hd : d.guid = g
  · subst hd
    rw [get?_remark_of_ne _ k hdc.symm]
    exact get?_remark_congr f (get?_remark_of_ne markers k hdc.symm).symm
  · rw [get?_remark_of_ne _ f hd]
    by_cases hc : c.guid = g
    · subst hc
      exact get?_remark_congr k (get?_remark_of_ne markers f hdc)
    · rw [get?_remark_of_ne _ k hc, get?_remark_of_ne _ k hc, get?_remark_of_ne _ f hd]

namespace Board

/-- Every connected record stands under its own GUID. -/
def GuidsOwn (b : Board) : Prop := ∀ g d, b.connected.get? g = some d → d.guid = g

/-- The connected driver that an input is about, if it is an event that touches one record only. -/
def subject? (b : Board) : Input → Option Guid
  | .event ev _ => ev.place?.bind b.occupant?
  | _ => none

/-- Sets the record of a driver and changes the marker. -/
def put (b : Board) (g : Guid) (r : Driver) (f : Option (Marker → Marker)) : Board :=
  { b with
    connected := b.connected.modify g (fun _ => r)
    markers := remark b.markers r f }

/-- The board after an input that is about one driver. -/
def follow (b : Board) : Input → Board
  | .event ev now =>
    match ev.place?.bind b.atCar? with
    | some (g, d) => b.put g (b.recordAfter now d ev) ev.marking?
    | none => b
  | _ => b

theorem occupant?_eq_some_iff {b : Board} {car : CarId} {g : Guid} :
    b.occupant? car = some g ↔ ∃ d, b.atCar? car = some (g, d) := by
  simp only [atCar?_eq_some_iff, occupant?, Option.filter_eq_some_iff, Keyed.contains_eq_isSome,
    Option.isSome_iff_exists, exists_and_left]

/-- An input about a driver is an event that names the place of the driver. -/
theorem exists_of_subject? {b : Board} {i : Input} {g : Guid} (h : b.subject? i = some g) :
    ∃ ev now car d, i = .event ev now ∧ ev.place? = some car ∧ b.atCar? car = some (g, d) := by
  cases i with
  | event ev now =>
      obtain ⟨car, hcar, hg⟩ := Option.bind_eq_some_iff.1 h
      obtain ⟨d, hd⟩ := occupant?_eq_some_iff.1 hg
      exact ⟨ev, now, car, d, rfl, hcar, hd⟩
  | tick t now => cases h
  | reset => cases h

theorem follow_eq {b : Board} {ev : Event} {now : Instant} {car : CarId} {g : Guid} {d : Driver}
    (hcar : ev.place? = some car) (hd : b.atCar? car = some (g, d)) :
    b.follow (.event ev now) = b.put g (b.recordAfter now d ev) ev.marking? := by
  have hbind : ev.place?.bind b.atCar? = some (g, d) := by
    rw [hcar]
    exact hd
  rw [follow, hbind]

theorem get?_connected_put (b : Board) (g a : Guid) (r : Driver) (f : Option (Marker → Marker)) :
    (b.put g r f).connected.get? a =
      if a = g then (b.connected.get? a).map (fun _ => r) else b.connected.get? a :=
  Keyed.get?_modify _ _ _ _

/-- Only the marker of the driver may be another one, and it comes from the one that was there, or
from a new one. -/
theorem get?_markers_put (b : Board) {g : Guid} {r : Driver} (hr : r.guid = g)
    (f : Option (Marker → Marker)) (a : Guid) :
    (b.put g r f).markers.get? a =
      if g = a then
        f.elim (b.markers.get? a) fun k => some (k ((b.markers.get? a).getD (.ofCar r.car)))
      else b.markers.get? a := by
  subst hr
  show (remark b.markers r f).get? a = _
  by_cases ha : r.guid = a
  · subst ha
    rw [if_pos rfl]
    cases f with
    | none => rfl
    | some k =>
        show (Table.insert _ _ _).get? _ = _
        rw [Table.get?_insert, if_pos rfl]
        rfl
  · rw [get?_remark_of_ne _ _ ha, if_neg ha]

/-- Who is in which place stays. -/
theorem subject?_put (b : Board) (g : Guid) (r : Driver) (f : Option (Marker → Marker)) :
    (b.put g r f).subject? = b.subject? := by
  have hcontains : (b.put g r f).connected.contains = b.connected.contains :=
    funext fun a => b.connected.contains_modify g a _
  have hoccupant : (b.put g r f).occupant? = b.occupant? := by
    funext car
    rw [occupant?, occupant?, hcontains]
    rfl
  funext i
  cases i with
  | event ev now => rw [subject?, subject?, hoccupant]
  | tick t now => rfl
  | reset => rfl

theorem GuidsOwn.put {b : Board} (h : b.GuidsOwn) {g : Guid} {r : Driver} (hr : r.guid = g)
    (f : Option (Marker → Marker)) : (b.put g r f).GuidsOwn := by
  intro a d ha
  rw [get?_connected_put] at ha
  split at ha
  · next hag =>
    obtain ⟨e, -, rfl⟩ := Option.map_eq_some_iff.1 ha
    exact hr.trans hag.symm
  · exact h a d ha

/-- What the others look at stays if the new record shows the same as the old one. -/
theorem looksLike_put {b : Board} {g : Guid} {d r : Driver} (hd : b.connected.get? g = some d)
    (hr : d.ShowsAs r) (f : Option (Marker → Marker)) : b.LooksLike (b.put g r f) := by
  have h := looksLike_setDriver hd hr
  exact ⟨h.cars, h.identities, h.splits⟩

theorem put_comm (b : Board) {g h : Guid} (hgh : g ≠ h) {r c : Driver} (hr : r.guid = g)
    (hc : c.guid = h) (f k : Option (Marker → Marker)) :
    (b.put g r f).put h c k = (b.put h c k).put g r f := by
  have hguids : r.guid ≠ c.guid := by
    rw [hr, hc]
    exact hgh
  simp only [put]
  rw [Keyed.modify_comm _ hgh, remark_comm _ hguids]

/-- An event of one driver does the same after another driver's record has been set to one that
shows the same to others. -/
theorem follow_put {b : Board} {g h : Guid} (hgh : g ≠ h) {d r c : Driver}
    (hd : b.connected.get? g = some d) (hr : d.ShowsAs r) (f : Option (Marker → Marker))
    {ev : Event} (now : Instant) {car : CarId} (hcar : ev.place? = some car)
    (hc : b.atCar? car = some (h, c)) :
    (b.put g r f).follow (.event ev now) =
      (b.put g r f).put h (b.recordAfter now c ev) ev.marking? := by
  obtain ⟨hplace, hget⟩ := atCar?_eq_some_iff.1 hc
  have hstill : (b.put g r f).atCar? car = some (h, c) := by
    refine atCar?_eq_some_iff.2 ⟨hplace, ?_⟩
    rw [get?_connected_put, if_neg hgh.symm]
    exact hget
  rw [follow_eq hcar hstill, recordAfter_congr (looksLike_put hd hr f)]

variable {b : Board}

theorem guid_recordAfter (h : b.GuidsOwn) {g : Guid} {d : Driver}
    (hd : b.connected.get? g = some d) (now : Instant) (ev : Event) :
    (b.recordAfter now d ev).guid = g :=
  (b.showsAs_recordAfter now d ev).guid.trans (h g d hd)

/-- **EVENTS OF TWO DRIVERS COMMUTE**. -/
theorem follow_comm (own : b.GuidsOwn) {g h : Guid} (hgh : g ≠ h) {i j : Input}
    (hi : b.subject? i = some g) (hj : b.subject? j = some h) :
    (b.follow i).follow j = (b.follow j).follow i := by
  obtain ⟨ev, now, car, d, rfl, hcar, hd⟩ := exists_of_subject? hi
  obtain ⟨ev', now', car', c, rfl, hcar', hc⟩ := exists_of_subject? hj
  have hdget := (atCar?_eq_some_iff.1 hd).2
  have hcget := (atCar?_eq_some_iff.1 hc).2
  rw [follow_eq hcar hd, follow_eq hcar' hc,
    follow_put hgh hdget (b.showsAs_recordAfter now d ev) _ now' hcar' hc,
    follow_put hgh.symm hcget (b.showsAs_recordAfter now' c ev') _ now hcar hd]
  exact b.put_comm hgh (guid_recordAfter own hdget now ev) (guid_recordAfter own hcget now' ev') _ _

/-! ## Sequences of events -/

theorem subject?_follow (b : Board) (i : Input) : (b.follow i).subject? = b.subject? := by
  cases i with
  | event ev now =>
      rw [follow]
      split
      · exact b.subject?_put _ _ _
      · rfl
  | tick t now => rfl
  | reset => rfl

theorem GuidsOwn.follow (h : b.GuidsOwn) (i : Input) : (b.follow i).GuidsOwn := by
  cases i with
  | event ev now =>
      rw [Board.follow]
      split
      · next g d hd =>
        obtain ⟨car, -, hat⟩ := Option.bind_eq_some_iff.1 hd
        exact h.put (guid_recordAfter h (atCar?_eq_some_iff.1 hat).2 now ev) _
      · exact h
  | tick t now => exact h
  | reset => exact h

/-- One event moves past a sequence of another driver's events. -/
theorem foldl_follow_comm (own : b.GuidsOwn) {g h : Guid} (hgh : g ≠ h) {xs : List Input}
    (hxs : ∀ i ∈ xs, b.subject? i = some g) {y : Input} (hy : b.subject? y = some h) :
    xs.foldl follow (b.follow y) = (xs.foldl follow b).follow y := by
  induction xs generalizing b with
  | nil => rfl
  | cons x xs ih =>
      have hx : b.subject? x = some g := hxs x List.mem_cons_self
      rw [List.foldl_cons, List.foldl_cons, follow_comm own hgh.symm hy hx]
      refine ih (own.follow x) ?_ ?_
      · intro i hi
        rw [subject?_follow]
        exact hxs i (List.mem_cons_of_mem x hi)
      · rw [subject?_follow]
        exact hy

/-- All ways to merge two drivers' events lead to the same board. -/
theorem foldl_follow_interleaving (own : b.GuidsOwn) {g h : Guid} (hgh : g ≠ h)
    {xs ys zs : List Input} (hzs : Interleaving xs ys zs) (hxs : ∀ i ∈ xs, b.subject? i = some g)
    (hys : ∀ i ∈ ys, b.subject? i = some h) :
    zs.foldl follow b = ys.foldl follow (xs.foldl follow b) := by
  induction hzs generalizing b with
  | nil => rfl
  | left x _ ih =>
      rw [List.foldl_cons, List.foldl_cons]
      refine ih (own.follow x) ?_ ?_
      · intro i hi
        rw [subject?_follow]
        exact hxs i (List.mem_cons_of_mem x hi)
      · intro i hi
        rw [subject?_follow]
        exact hys i hi
  | right y _ ih =>
      -- the event of the second driver has to move past all of the first
      have hy : b.subject? y = some h := hys y List.mem_cons_self
      rw [List.foldl_cons, List.foldl_cons, ← foldl_follow_comm own hgh hxs hy]
      refine ih (own.follow y) ?_ ?_
      · intro i hi
        rw [subject?_follow]
        exact hxs i hi
      · intro i hi
        rw [subject?_follow]
        exact hys i (List.mem_cons_of_mem y hi)

/-- What is announced with an input that is about one driver. -/
def told (b : Board) (i : Input) : List Notification :=
  match i with
  | .event ev _ => (b.subject? i).elim [] ev.told
  | _ => []

theorem told_follow (b : Board) (i : Input) : (b.follow i).told = b.told := by
  funext j
  cases j with
  | event ev now =>
      show ((b.follow i).subject? _).elim _ _ = (b.subject? _).elim _ _
      rw [subject?_follow]
  | tick t now => rfl
  | reset => rfl

end Board

namespace Engine

/-- The inputs of a run, each with what is announced. -/
def transcript (e : Engine) (inputs : List Input) : List (Input × List Notification) :=
  inputs.zip (e.announcements inputs)

theorem withCar_of_atCar? {e : Engine} {car : CarId} {g : Guid} {d : Driver}
    (hd : e.board.atCar? car = some (g, d)) (f : Guid → Driver → Engine × Outcome) :
    e.withCar car f = f g d := by
  rw [withCar, hd]

/-- An event about one driver sets the driver's record and marker, and announces the driver. -/
theorem merge_of_place? (e : Engine) (now : Instant) {ev : Event} {car : CarId} {g : Guid}
    {d : Driver} (hcar : ev.place? = some car) (hd : e.board.atCar? car = some (g, d)) :
    (e.merge now ev).1.board = e.board.put g (e.board.recordAfter now d ev) ev.marking? ∧
      (e.merge now ev).2.notifications = ev.told (e.board.recordAfter now d ev).guid := by
  cases ev with
  | clientLoaded car' =>
      cases hcar
      rw [merge, finishLoading, withCar_of_atCar? hd]
      exact ⟨rfl, rfl⟩
  | carUpdate t =>
      cases hcar
      rw [merge, drive, withCar_of_atCar? hd]
      exact ⟨rfl, rfl⟩
  | collision c =>
      cases hcar
      rw [merge, collide, withCar_of_atCar? hd]
      exact ⟨rfl, rfl⟩
  | splitCompleted s =>
      cases hcar
      rw [merge, completeSplit, withCar_of_atCar? hd]
      exact ⟨rfl, rfl⟩
  | tyresChanged car' =>
      cases hcar
      rw [merge, changeTyres, withCar_of_atCar? hd]
      exact ⟨rfl, rfl⟩
  | _ => cases hcar

theorem react_of_subject? {e : Engine} (own : e.board.GuidsOwn) {i : Input} {g : Guid}
    (h : e.board.subject? i = some g) :
    (e.react i).1.board = e.board.follow i ∧ (e.react i).2 = e.board.told i := by
  obtain ⟨ev, now, car, d, rfl, hcar, hd⟩ := Board.exists_of_subject? h
  obtain ⟨hboard, htold⟩ := merge_of_place? { e with lastAppliedAt := some now } now hcar hd
  have hg := Board.guid_recordAfter own (Board.atCar?_eq_some_iff.1 hd).2 now ev
  constructor
  · rw [Board.follow_eq hcar hd]
    exact hboard
  · rw [Board.told, h]
    exact htold.trans (congrArg ev.told hg)

/-- In a run of such events the board follows them one by one, and each of them announces what it
would at the start. -/
theorem run_of_subject? {e : Engine} (own : e.board.GuidsOwn) {is : List Input}
    (h : ∀ i ∈ is, ∃ g, e.board.subject? i = some g) :
    (e.run is).board = is.foldl Board.follow e.board ∧
      e.transcript is = is.map (fun i => (i, e.board.told i)) := by
  induction is generalizing e with
  | nil => exact ⟨rfl, rfl⟩
  | cons i is ih =>
      obtain ⟨g, hg⟩ := h i List.mem_cons_self
      obtain ⟨hboard, htold⟩ := react_of_subject? own hg
      have hrest := ih (e := (e.react i).1) (by rw [hboard]; exact own.follow i) (by
        intro j hj
        rw [hboard, Board.subject?_follow]
        exact h j (List.mem_cons_of_mem i hj))
      rw [hboard, Board.told_follow] at hrest
      constructor
      · rw [run_cons, List.foldl_cons]
        exact hrest.1
      · show (i, (e.react i).2) :: (e.react i).1.transcript is = _
        rw [hrest.2, htold, List.map_cons]

/-- **EVENTS OF DIFFERENT DRIVERS COMMUTE**: in every state that can be reached, let two connected
drivers have a sequence of events each, of loading, telemetry, collisions, splits and tyres, at
whatever times. Then all ways to merge the two lead to the same board, that of one after the other,
and each event announces in the merged run what it announces in its own sequence alone. -/
theorem run_interleaving {e : Engine} (he : e.Reachable) {g h : Guid} (hgh : g ≠ h)
    {xs ys zs : List Input} (hxs : ∀ i ∈ xs, e.board.subject? i = some g)
    (hys : ∀ i ∈ ys, e.board.subject? i = some h) (hzs : Interleaving xs ys zs) :
    (e.run zs).board = (e.run (xs ++ ys)).board ∧
      Interleaving (e.transcript xs) (e.transcript ys) (e.transcript zs) := by
  have own : e.board.GuidsOwn := he.filed.own
  have hboth : ∀ i, i ∈ xs ∨ i ∈ ys → ∃ a, e.board.subject? i = some a := by
    rintro i (hi | hi)
    · exact ⟨g, hxs i hi⟩
    · exact ⟨h, hys i hi⟩
  obtain ⟨hmerged, htold⟩ := run_of_subject? own fun i hi => hboth i (hzs.mem_or_mem hi)
  obtain ⟨hserial, -⟩ := run_of_subject? own fun i hi => hboth i (List.mem_append.1 hi)
  obtain ⟨-, hfirst⟩ := run_of_subject? own fun i hi => ⟨g, hxs i hi⟩
  obtain ⟨-, hsecond⟩ := run_of_subject? own fun i hi => ⟨h, hys i hi⟩
  constructor
  · rw [hmerged, hserial, List.foldl_append]
    exact Board.foldl_follow_interleaving own hgh hzs hxs hys
  · rw [htold, hfirst, hsecond]
    exact hzs.map _

/-- One driver has a best lap with a split. The other one collides with that driver and drives the
same split, while that driver drives on and changes tyres. -/
theorem run_interleaving_of_collision_and_splits :
    let now : Instant := ⟨100, 0, by decide, by decide, by decide, by decide⟩
    let e := initial.run
      [.event (.newConnection { carId := 1, driverName := "Ann", guid := ⟨"a"⟩ }) now,
       .event (.newConnection { carId := 2, driverName := "Bob", guid := ⟨"b"⟩ }) now,
       .event (.splitCompleted { carId := 2, index := 0, millis := 30000 }) now,
       .event (.lapCompleted { carId := 2, millis := 80000 }) now]
    let hit : Input := .event (.collision { carId := 1, otherCarId := some 2 }) now
    let split : Input := .event (.splitCompleted { carId := 1, index := 0, millis := 29000 }) now
    let drive : Input := .event (.carUpdate { carId := 2, rpm := 6000 }) now
    let tyres : Input := .event (.tyresChanged { carId := 2, tyres := "S" }) now
    (e.run [drive, hit, tyres, split]).board = (e.run ([hit, split] ++ [drive, tyres])).board ∧
      Interleaving (e.transcript [hit, split]) (e.transcript [drive, tyres])
        (e.transcript [drive, hit, tyres, split]) := by
  intro now e hit split drive tyres
  have he : e.Reachable := ⟨_, rfl⟩
  have hab : (⟨"a"⟩ : Guid) ≠ ⟨"b"⟩ := by decide
  have hxs : ∀ i ∈ [hit, split], e.board.subject? i = some ⟨"a"⟩ := by decide +kernel
  have hys : ∀ i ∈ [drive, tyres], e.board.subject? i = some ⟨"b"⟩ := by decide +kernel
  have hzs : Interleaving [hit, split] [drive, tyres] [drive, hit, tyres, split] :=
    .right drive (.left hit (.right tyres (.left split .nil)))
  exact run_interleaving he hab hxs hys hzs

end Engine

end Pitwall
