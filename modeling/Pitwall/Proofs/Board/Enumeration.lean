import Mathlib.Data.List.Nodup
import Pitwall.Board.OfSnapshot
import Pitwall.Proofs.Data.Lookup

/-!
# Enumeration — in which order the maps of a snapshot come out

The maps of a snapshot hold the same entries whatever order they are enumerated in; two
enumerations of one snapshot are **`Snapshot.Same`**. The records of a group are sorted before
they are used, so their order cannot show. The places can: a driver who is listed at two places
gets the one that comes out last. Where no driver is (**`Snapshot.BindsOnce`**), the board does not
tell how the snapshot was enumerated: **`Board.ofSnapshot_congr`**.
-/

namespace Pitwall

/-! ## Two enumerations of the same -/

namespace Roster

/-- Two enumerations of the same group. -/
structure Same (g h : Roster) : Prop where
  /-- The same records. -/
  drivers : g.drivers.entries.Perm h.drivers.entries
  /-- The same order of rank. -/
  order : g.order = h.order

theorem Same.refl (g : Roster) : g.Same g := ⟨List.Perm.refl _, rfl⟩

/-- The records come in the same order. -/
theorem Same.ranked_eq {g h : Roster} (hs : g.Same h) : g.ranked = h.ranked := by
  have htable : (Table.ofList g.drivers.entries : Table Guid Driver) =
      Table.ofList h.drivers.entries := Table.ofList_perm hs.drivers g.drivers.distinct
  rw [ranked, ranked, htable, hs.order]

/-- Two enumerations of the same group, if there is one. -/
inductive OptionSame : Option Roster → Option Roster → Prop where
  /-- There is none. -/
  | none : OptionSame none none
  /-- There is one. -/
  | some {g h : Roster} (same : g.Same h) : OptionSame (some g) (some h)

theorem OptionSame.refl (o : Option Roster) : OptionSame o o := by
  cases o with
  | none => exact .none
  | some g => exact .some (Same.refl g)

theorem OptionSame.ranked_eq {o p : Option Roster} (hs : OptionSame o p) :
    o.elim [] ranked = p.elim [] ranked := by
  cases hs with
  | none => rfl
  | some same => exact same.ranked_eq

end Roster

namespace Snapshot

/-- Two enumerations of the same snapshot. -/
structure Same (s t : Snapshot) : Prop where
  session : s.session = t.session
  startedAt : s.startedAt = t.startedAt
  updateMillis : s.updateMillis = t.updateMillis
  track : s.track = t.track
  map : s.map = t.map
  connected : Roster.OptionSame s.connected t.connected
  disconnected : Roster.OptionSame s.disconnected t.disconnected
  cars : s.cars.entries.Perm t.cars.entries

/-- No driver is listed at two places. -/
def BindsOnce (s : Snapshot) : Prop := s.cars.values.Nodup

instance (s : Snapshot) : Decidable s.BindsOnce := inferInstanceAs (Decidable (List.Nodup _))

theorem Same.refl (s : Snapshot) : s.Same s where
  session := rfl
  startedAt := rfl
  updateMillis := rfl
  track := rfl
  map := rfl
  connected := .refl _
  disconnected := .refl _
  cars := .refl _

end Snapshot

/-! ## Places -/

namespace Occupancy

/-- Binding a place to a driver takes the driver off every other place. -/
theorem guid?_insert (o : Occupancy) (car a : CarId) (guid : Guid) :
    (o.insert car guid).guid? a =
      if car = a then some guid else (o.guid? a).filter (fun g => g ≠ guid) := by
  show ((o.release car guid).insert car guid).get? a = _
  rw [Table.get?_insert, release, Table.get?_filter]
  by_cases h : car = a
  · rw [if_pos h, if_pos h]
  · have hne : a ≠ car := fun h' => h h'.symm
    rw [if_neg h, if_neg h]
    congr 1
    funext g
    simp [hne]

/-- Taking a driver off takes nobody else off. -/
theorem guid?_remove (o : Occupancy) (g : Guid) (a : CarId) :
    (o.remove g).1.guid? a = (o.guid? a).filter (fun h => h ≠ g) := by
  show (o.byCar.filter (fun _ h => h ≠ g)).get? a = _
  rw [Table.get?_filter]
  rfl

/-- Bindings of different drivers to different places do not get in each other's way. -/
theorem insert_comm (o : Occupancy) {a b : CarId} {g h : Guid} (hab : a ≠ b) (hgh : g ≠ h) :
    (o.insert a g).insert b h = (o.insert b h).insert a g := by
  refine ext (Table.ext_get? fun k => ?_)
  show ((o.insert a g).insert b h).guid? k = ((o.insert b h).insert a g).guid? k
  rw [guid?_insert, guid?_insert, guid?_insert, guid?_insert]
  by_cases ha : a = k
  · subst ha
    rw [if_neg (Ne.symm hab), if_pos rfl, if_pos rfl]
    have hkeep : decide (g ≠ h) = true := decide_eq_true hgh
    rw [Option.filter_some, if_pos hkeep]
  · by_cases hb : b = k
    · subst hb
      rw [if_pos rfl, if_neg ha, if_pos rfl]
      have hkeep : decide (h ≠ g) = true := decide_eq_true (Ne.symm hgh)
      rw [Option.filter_some, if_pos hkeep]
    · rw [if_neg hb, if_neg ha, if_neg ha, if_neg hb, Option.filter_filter, Option.filter_filter]
      congr 1
      funext x
      exact Bool.and_comm _ _

/-- Where no driver is listed twice, the order of the list does not show. -/
theorem ofListing_congr {m n : Keyed CarId Guid} (hp : m.entries.Perm n.entries)
    (hd : m.values.Nodup) : ofListing m = ofListing n := by
  refine hp.foldl_eq' ?_ empty
  -- different entries have different places, and different drivers as none is listed twice
  intro x hx y hy o
  by_cases hxy : x = y
  · rw [hxy]
  · have hcar : x.1 ≠ y.1 := fun h => hxy (List.inj_on_of_nodup_map m.distinct hx hy h)
    have hguid : x.2 ≠ y.2 := fun h => hxy (List.inj_on_of_nodup_map hd hx hy h)
    exact o.insert_comm hcar hguid

end Occupancy

namespace Board

/-- **THE ORDER OF THE MAPS DOES NOT SHOW** in the board that a snapshot describes. -/
theorem ofSnapshot_congr {s t : Snapshot} (h : s.Same t) (hs : s.BindsOnce) :
    ofSnapshot s = ofSnapshot t := by
  have hcars : Occupancy.ofListing s.cars = Occupancy.ofListing t.cars :=
    Occupancy.ofListing_congr h.cars hs
  simp only [ofSnapshot]
  rw [h.session, h.startedAt, h.updateMillis, h.track, h.map, hcars, h.connected.ranked_eq,
    h.disconnected.ranked_eq]

end Board

end Pitwall
