import Pitwall.Driver.Guid

/-!
# Occupancy — who occupies which place

An `Occupancy` binds places on the server to drivers, one driver to a place and one place to a
driver: it is a table of places whose values are distinct, so it can be read both ways.
Binding a place or a driver anew dissolves whatever either of them was bound to.
-/

namespace Pitwall

namespace Table

variable {κ ν : Type} [Ord κ]

/-- Inserting under a key that is not held adds just the value. -/
theorem perm_values_insertEntry [Std.LawfulEqOrd κ] {k : κ} (v : ν) {es : List (κ × ν)}
    (h : k ∉ es.map Prod.fst) :
    ((insertEntry k v es).map Prod.snd).Perm (v :: es.map Prod.snd) := by
  induction es with
  | nil => exact List.Perm.refl _
  | cons e es ih =>
    simp only [List.map_cons, List.mem_cons, not_or] at h
    simp only [insertEntry]
    split
    · exact List.Perm.refl _
    · next heq => exact absurd (Std.LawfulEqOrd.eq_of_compare heq) h.1
    · rw [List.map_cons, List.map_cons]
      exact ((ih h.2).cons e.2).trans (List.Perm.swap _ _ _)

end Table

/-- Who occupies which place on the server. -/
structure Occupancy where
  /-- The drivers by their places. -/
  byCar : Table CarId Guid
  /-- No driver occupies two places. -/
  distinct : (byCar.entries.map Prod.snd).Nodup

namespace Occupancy

/-- Nobody occupies a place. -/
def empty : Occupancy := ⟨.empty, List.nodup_nil⟩

instance : Inhabited Occupancy := ⟨empty⟩

theorem ext {o p : Occupancy} (h : o.byCar = p.byCar) : o = p := by
  cases o; cases p; cases h; rfl

instance : DecidableEq Occupancy := fun o p =>
  decidable_of_iff (o.byCar = p.byCar) ⟨ext, fun h => h ▸ rfl⟩

/-- The driver who occupies a place. -/
def guid? (o : Occupancy) (car : CarId) : Option Guid := o.byCar.get? car

/-- The place that a driver occupies. -/
def car? (o : Occupancy) (guid : Guid) : Option CarId :=
  (o.byCar.entries.find? (fun e => e.2 = guid)).map Prod.fst

/-- The number of occupied places. -/
def size (o : Occupancy) : Nat := o.byCar.size

/-- Whether no place is occupied. -/
def isEmpty (o : Occupancy) : Bool := o.byCar.isEmpty

/-- Dissolves the bindings of a place and of a driver. -/
def release (o : Occupancy) (car : CarId) (guid : Guid) : Table CarId Guid :=
  o.byCar.filter (fun c g => c ≠ car && g ≠ guid)

theorem car_notMem_release (o : Occupancy) (car : CarId) (guid : Guid) :
    car ∉ (o.release car guid).entries.map Prod.fst := by
  intro h
  obtain ⟨e, he, rfl⟩ := List.mem_map.1 h
  have := (List.mem_filter.1 he).2
  simp at this

theorem guid_notMem_release (o : Occupancy) (car : CarId) (guid : Guid) :
    guid ∉ (o.release car guid).entries.map Prod.snd := by
  intro h
  obtain ⟨e, he, rfl⟩ := List.mem_map.1 h
  have := (List.mem_filter.1 he).2
  simp at this

/-- Binds a place and a driver to each other. -/
def insert (o : Occupancy) (car : CarId) (guid : Guid) : Occupancy where
  byCar := (o.release car guid).insert car guid
  distinct := by
    have hp := Table.perm_values_insertEntry guid (o.car_notMem_release car guid)
    refine hp.nodup_iff.2 (List.nodup_cons.2 ⟨o.guid_notMem_release car guid, ?_⟩)
    exact (List.filter_sublist.map Prod.snd).nodup o.distinct

/-- Dissolves the binding of a driver and tells the place that has become free. -/
def remove (o : Occupancy) (guid : Guid) : Occupancy × Option CarId :=
  ({ byCar := o.byCar.filter (fun _ g => g ≠ guid)
     distinct := (List.filter_sublist.map Prod.snd).nodup o.distinct },
   o.car? guid)

/-- Binds every place to the driver it is listed with, in the order of the list: a driver listed
at several places occupies the last of them. -/
def ofListing (m : Keyed CarId Guid) : Occupancy :=
  m.entries.foldl (fun o e => o.insert e.1 e.2) empty

end Occupancy

end Pitwall
