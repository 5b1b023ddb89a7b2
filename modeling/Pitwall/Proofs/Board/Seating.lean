import Pitwall.Proofs.Board.Enumeration

/-!
# Seating — places and drivers listed from both sides

An occupancy is one table that is read both ways. The bindings can be held in two tables as well, a
**`Seating`**: the drivers by their places and the places by their drivers, each kept up to date by
hand. Binding a place and a driver may dissolve two bindings at once, that of the place and that of
the driver, and each of them stands in both tables. None is forgotten on either side: whatever is
bound and released, the two tables are inverse to each other and bind what the occupancy binds
(**`Seating.paired_of_run`**).
-/

namespace Pitwall

namespace Occupancy

/-- The two ways to read an occupancy are inverse to each other. -/
theorem car?_eq_some_iff {o : Occupancy} {car : CarId} {guid : Guid} :
    o.car? guid = some car ↔ o.guid? car = some guid := by
  rw [car?, guid?, Table.get?_eq_some_iff, Option.map_eq_some_iff]
  constructor
  · rintro ⟨e, he, rfl⟩
    have hguid : e.2 = guid := by simpa using List.find?_some he
    rw [← hguid]
    exact List.mem_of_find?_eq_some he
  · intro hmem
    obtain ⟨e, he⟩ : ∃ e, o.byCar.entries.find? (fun e => e.2 = guid) = some e := by
      rw [← Option.isSome_iff_exists, List.find?_isSome]
      exact ⟨(car, guid), hmem, by simp⟩
    have hguid : e.2 = guid := by simpa using List.find?_some he
    -- no driver occupies two places
    have hsame : e = (car, guid) :=
      List.inj_on_of_nodup_map o.distinct (List.mem_of_find?_eq_some he) hmem hguid
    exact ⟨e, he, by rw [hsame]⟩

end Occupancy

/-- What may be done to places and drivers. -/
inductive Rebinding where
  /-- A place and a driver are bound to each other. -/
  | bind (car : CarId) (guid : Guid)
  /-- A driver is taken off the place. -/
  | release (guid : Guid)

namespace Occupancy

theorem guid?_insert_iff (o : Occupancy) (car : CarId) (guid : Guid) (a : CarId) (b : Guid) :
    (o.insert car guid).guid? a = some b ↔
      (a = car ∧ b = guid) ∨ (a ≠ car ∧ b ≠ guid ∧ o.guid? a = some b) := by
  rw [guid?_insert]
  by_cases ha : car = a
  · subst ha
    simp [eq_comm]
  · simp [ha, Ne.symm ha, Option.filter_eq_some_iff, and_comm]

theorem guid?_remove_iff (o : Occupancy) (guid : Guid) (a : CarId) (b : Guid) :
    (o.remove guid).1.guid? a = some b ↔ b ≠ guid ∧ o.guid? a = some b := by
  rw [guid?_remove, Option.filter_eq_some_iff]
  simp [and_comm]

/-- What becomes of an occupancy, with the place that has been told to be free. -/
def step (o : Occupancy) : Rebinding → Occupancy × Option CarId
  | .bind car guid => (o.insert car guid, none)
  | .release guid => o.remove guid

def run (o : Occupancy) (changes : List Rebinding) : Occupancy :=
  changes.foldl (fun o c => (o.step c).1) o

end Occupancy

/-- Places and drivers bound to each other, listed from both sides. -/
structure Seating where
  /-- The drivers by their places. -/
  byCar : Table CarId Guid := .empty
  /-- The places by their drivers. -/
  byGuid : Table Guid CarId := .empty

namespace Seating

/-- The driver who occupies a place. -/
def guid? (s : Seating) (car : CarId) : Option Guid := s.byCar.get? car

/-- The place that a driver occupies. -/
def car? (s : Seating) (guid : Guid) : Option CarId := s.byGuid.get? guid

/-- The number of occupied places. -/
def size (s : Seating) : Nat := s.byCar.size

/-- Takes a place and a driver off both lists. -/
def unbind (s : Seating) (car : CarId) (guid : Guid) : Seating :=
  ⟨s.byCar.erase car, s.byGuid.erase guid⟩

/-- Clears a place. -/
def vacate (s : Seating) (car : CarId) : Seating :=
  match s.guid? car with
  | none => s
  | some guid => s.unbind car guid

/-- Takes a driver off the place and tells which it was. -/
def remove (s : Seating) (guid : Guid) : Seating × Option CarId :=
  match s.car? guid with
  | none => (s, none)
  | some car => (s.unbind car guid, some car)

/-- Binds a place and a driver to each other, once both are free. -/
def insert (s : Seating) (car : CarId) (guid : Guid) : Seating :=
  let s := ((s.vacate car).remove guid).1
  ⟨s.byCar.insert car guid, s.byGuid.insert guid car⟩

/-- Binds every place to the driver it is listed with, in the order of the list. -/
def ofListing (m : Keyed CarId Guid) : Seating :=
  m.entries.foldl (fun s e => s.insert e.1 e.2) {}

/-- What becomes of a seating, with the place that has been told to be free. -/
def step (s : Seating) : Rebinding → Seating × Option CarId
  | .bind car guid => (s.insert car guid, none)
  | .release guid => s.remove guid

def run (s : Seating) (changes : List Rebinding) : Seating :=
  changes.foldl (fun s c => (s.step c).1) s

/-- The two lists are inverse to each other. -/
def Inverse (s : Seating) : Prop := ∀ car guid, s.guid? car = some guid ↔ s.car? guid = some car

variable {s : Seating} {o : Occupancy}

/-! ## Bindings that are dissolved and made -/

theorem guid?_unbind (s : Seating) (car a : CarId) (guid : Guid) :
    (s.unbind car guid).guid? a = if a = car then none else s.guid? a :=
  Table.get?_erase _ _ _

theorem car?_unbind (s : Seating) (car : CarId) (guid b : Guid) :
    (s.unbind car guid).car? b = if b = guid then none else s.car? b :=
  Table.get?_erase _ _ _

/-- Dissolving a binding on both lists leaves them inverse to each other. -/
theorem Inverse.unbind (h : s.Inverse) {car : CarId} {guid : Guid}
    (hbound : s.guid? car = some guid) : (s.unbind car guid).Inverse := by
  intro a b
  rw [guid?_unbind, car?_unbind]
  have hback : s.car? guid = some car := (h car guid).1 hbound
  by_cases ha : a = car
  · -- nobody else occupies the place
    subst ha
    have hb : s.car? b = some a → b = guid := by
      intro hcar
      exact Option.some.inj (((h a b).2 hcar).symm.trans hbound)
    rw [if_pos rfl]
    refine iff_of_false (fun hnone => nomatch hnone) ?_
    split
    · exact fun hnone => nomatch hnone
    · next hne => exact fun hcar => hne (hb hcar)
  · rw [if_neg ha]
    by_cases hb : b = guid
    · -- the driver occupies no other place
      subst hb
      rw [if_pos rfl]
      refine iff_of_false ?_ fun hnone => nomatch hnone
      intro hguid
      exact ha (Option.some.inj (((h a b).1 hguid).symm.trans hback))
    · rw [if_neg hb]
      exact h a b

theorem Inverse.vacate (h : s.Inverse) (car : CarId) : (s.vacate car).Inverse := by
  rw [Seating.vacate]
  split
  · exact h
  · next guid hbound => exact h.unbind hbound

/-- A place that is cleared is free, and the others are not touched. -/
theorem guid?_vacate (s : Seating) (car a : CarId) :
    (s.vacate car).guid? a = if a = car then none else s.guid? a := by
  rw [vacate]
  split
  · next hfree =>
    split
    · next ha => rw [ha, hfree]
    · rfl
  · exact s.guid?_unbind _ _ _

theorem Inverse.remove (h : s.Inverse) (guid : Guid) : (s.remove guid).1.Inverse := by
  rw [Seating.remove]
  split
  · exact h
  · next car hbound => exact h.unbind ((h car guid).2 hbound)

/-- Who is taken off has no place, and the others keep theirs. -/
theorem car?_remove (s : Seating) (guid b : Guid) :
    (s.remove guid).1.car? b = if b = guid then none else s.car? b := by
  rw [remove]
  split
  · next hfree =>
    split
    · next hb => rw [hb, hfree]
    · rfl
  · exact s.car?_unbind _ _ _

theorem snd_remove (s : Seating) (guid : Guid) : (s.remove guid).2 = s.car? guid := by
  rw [remove]
  split
  · next hfree => exact hfree.symm
  · next car hbound => exact hbound.symm

/-- **RELEASING** dissolves the binding of the driver and no other. -/
theorem Inverse.guid?_remove_iff (h : s.Inverse) (guid : Guid) (a : CarId) (b : Guid) :
    (s.remove guid).1.guid? a = some b ↔ b ≠ guid ∧ s.guid? a = some b := by
  rw [h.remove guid a b, car?_remove, h a b]
  split
  · next hb => exact iff_of_false (fun hnone => nomatch hnone) fun hne => hne.1 hb
  · next hb => exact ⟨fun hcar => ⟨hb, hcar⟩, fun hcar => hcar.2⟩

theorem guid?_insert (s : Seating) (car a : CarId) (guid : Guid) :
    (s.insert car guid).guid? a =
      if car = a then some guid else ((s.vacate car).remove guid).1.guid? a :=
  Table.get?_insert _ _ _ _

theorem car?_insert (s : Seating) (car : CarId) (guid b : Guid) :
    (s.insert car guid).car? b =
      if guid = b then some car else ((s.vacate car).remove guid).1.car? b :=
  Table.get?_insert _ _ _ _

/-- **BINDING** dissolves the binding of the place and that of the driver, and no other. -/
theorem Inverse.guid?_insert_iff (h : s.Inverse) (car : CarId) (guid : Guid) (a : CarId)
    (b : Guid) : (s.insert car guid).guid? a = some b ↔
      (a = car ∧ b = guid) ∨ (a ≠ car ∧ b ≠ guid ∧ s.guid? a = some b) := by
  rw [guid?_insert]
  split
  · next ha =>
    rw [Option.some.injEq]
    constructor
    · exact fun hb => .inl ⟨ha.symm, hb.symm⟩
    · rintro (⟨-, hb⟩ | ⟨hne, -⟩)
      · exact hb.symm
      · exact absurd ha.symm hne
  · next ha =>
    rw [(h.vacate car).guid?_remove_iff, guid?_vacate, if_neg (Ne.symm ha)]
    constructor
    · exact fun hb => .inr ⟨Ne.symm ha, hb⟩
    · rintro (⟨heq, -⟩ | ⟨-, hb⟩)
      · exact absurd heq.symm ha
      · exact hb

theorem Inverse.insert (h : s.Inverse) (car : CarId) (guid : Guid) :
    (s.insert car guid).Inverse := by
  have hfree : ((s.vacate car).remove guid).1.Inverse := (h.vacate car).remove guid
  intro a b
  rw [h.guid?_insert_iff, car?_insert]
  split
  · next hb =>
    rw [Option.some.injEq]
    constructor
    · rintro (⟨ha, -⟩ | ⟨-, hne, -⟩)
      · exact ha.symm
      · exact absurd hb.symm hne
    · exact fun ha => .inl ⟨ha.symm, hb.symm⟩
  · next hb =>
    rw [← hfree a b, (h.vacate car).guid?_remove_iff, guid?_vacate]
    constructor
    · rintro (⟨-, heq⟩ | ⟨ha, hne, hbound⟩)
      · exact absurd heq.symm hb
      · exact ⟨hne, (if_neg ha).trans hbound⟩
    · rintro ⟨hne, hbound⟩
      split at hbound
      · cases hbound
      · next ha => exact .inr ⟨ha, hne, hbound⟩

/-! ## All that may be done -/

/-- The seating binds what the occupancy binds. -/
def Shows (s : Seating) (o : Occupancy) : Prop := ∀ car, s.guid? car = o.guid? car

/-- Places and drivers are bound in pairs, and stay so whatever is done next. -/
structure Paired (s : Seating) : Prop where
  /-- The two lists are inverse to each other. -/
  inverse : s.Inverse
  /-- The pairs are counted. -/
  counted : ∃ pairs : List (CarId × Guid), pairs.Nodup ∧
    (∀ car guid, (car, guid) ∈ pairs ↔ s.guid? car = some guid) ∧ s.size = pairs.length
  /-- Binding makes one pair, and dissolves those of the place and of the driver only. -/
  bound : ∀ car guid a b, (s.insert car guid).guid? a = some b ↔
    (a = car ∧ b = guid) ∨ (a ≠ car ∧ b ≠ guid ∧ s.guid? a = some b)
  /-- Releasing dissolves the pair of the driver only. -/
  released : ∀ guid a b, (s.remove guid).1.guid? a = some b ↔ b ≠ guid ∧ s.guid? a = some b
  /-- It is told which place has become free. -/
  told : ∀ guid, (s.remove guid).2 = s.car? guid
  /-- Releasing a driver without a place changes nothing. -/
  absent : ∀ guid, s.car? guid = none → (s.remove guid).1 = s

theorem Inverse.paired (h : s.Inverse) : s.Paired where
  inverse := h
  counted := ⟨s.byCar.entries, Entries.nodup_of_keys s.byCar.nodup_keys,
    fun _ _ => Table.get?_eq_some_iff.symm, rfl⟩
  bound := h.guid?_insert_iff
  released := h.guid?_remove_iff
  told := s.snd_remove
  absent := by
    intro guid hfree
    rw [Seating.remove, hfree]

/-- **THE TWO LISTS DO WHAT THE OCCUPANCY DOES**, and stay inverse to each other. -/
theorem Inverse.step (h : s.Inverse) (hshows : s.Shows o) (c : Rebinding) :
    (s.step c).1.Inverse ∧ (s.step c).1.Shows (o.step c).1 ∧ (s.step c).2 = (o.step c).2 := by
  cases c with
  | bind car guid =>
      refine ⟨h.insert car guid, ?_, rfl⟩
      intro a
      refine Option.ext fun b => ?_
      show (s.insert car guid).guid? a = some b ↔ (o.insert car guid).guid? a = some b
      rw [h.guid?_insert_iff, Occupancy.guid?_insert_iff, hshows]
  | release guid =>
      refine ⟨h.remove guid, ?_, ?_⟩
      · intro a
        refine Option.ext fun b => ?_
        show (s.remove guid).1.guid? a = some b ↔ (o.remove guid).1.guid? a = some b
        rw [h.guid?_remove_iff, Occupancy.guid?_remove_iff, hshows]
      · show (s.remove guid).2 = o.car? guid
        rw [snd_remove]
        refine Option.ext fun car => ?_
        rw [← h, Occupancy.car?_eq_some_iff, hshows]

theorem Inverse.run (h : s.Inverse) (hshows : s.Shows o) (changes : List Rebinding) :
    (s.run changes).Inverse ∧ (s.run changes).Shows (o.run changes) := by
  induction changes generalizing s o with
  | nil => exact ⟨h, hshows⟩
  | cons c changes ih =>
      obtain ⟨hinverse, hsame, -⟩ := h.step hshows c
      exact ih hinverse hsame

/-- A listing is bound one place after the other. -/
theorem inverse_ofListing (m : Keyed CarId Guid) :
    (ofListing m).Inverse ∧ (ofListing m).Shows (.ofListing m) := by
  have hempty : ({} : Seating).Inverse :=
    fun _ _ => iff_of_false (fun h => nomatch h) fun h => nomatch h
  have hrun := hempty.run (o := .empty) (fun _ => rfl) (m.entries.map fun e => .bind e.1 e.2)
  rw [run, Occupancy.run, List.foldl_map, List.foldl_map] at hrun
  exact hrun

/-- **PLACES AND DRIVERS ARE BOUND IN PAIRS**, whatever has been listed and in whatever order, and
whatever is bound and released then. The pairs are those of the occupancy, and the same is told. -/
theorem paired_of_run (m : Keyed CarId Guid) (changes : List Rebinding) :
    let s := (ofListing m).run changes
    let o := (Occupancy.ofListing m).run changes
    s.Paired ∧ s.byCar = o.byCar ∧ (∀ guid, s.car? guid = o.car? guid) ∧
      ∀ c, (s.step c).2 = (o.step c).2 := by
  intro s o
  obtain ⟨hlisted, hsame⟩ := inverse_ofListing m
  obtain ⟨hinverse, hshows⟩ := hlisted.run hsame changes
  refine ⟨hinverse.paired, Table.ext_get? hshows, ?_, fun c => (hinverse.step hshows c).2.2⟩
  intro guid
  refine Option.ext fun car => ?_
  rw [← hinverse, Occupancy.car?_eq_some_iff, hshows]

end Seating

end Pitwall
