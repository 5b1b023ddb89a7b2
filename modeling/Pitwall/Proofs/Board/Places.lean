import Mathlib.Data.List.Induction
import Pitwall.Proofs.Board.Enumeration
import Pitwall.Proofs.Board.Filing

/-!
# Places — which of several a driver gets

A snapshot may list a driver at several places. The places are bound one after the other, so the
driver gets the one that comes out last: **`Occupancy.guid?_ofListing_iff`**. Any of them can come
out last, so the places do not depend on the snapshot alone; all the rest of the board does. What
exactly is left to the order of the maps says **`Board.ofSnapshot_enumerations`**.
-/

namespace Pitwall

namespace Occupancy

/-- **THE LAST PLACE COUNTS**: a driver occupies the place that is listed last with the driver. -/
theorem guid?_ofListing_iff (m : Keyed CarId Guid) (c : CarId) (g : Guid) :
    (ofListing m).guid? c = some g ↔
      (m.entries.filter (fun e => e.2 = g)).getLast? = some (c, g) := by
  obtain ⟨es, hd⟩ := m
  show (es.foldl (fun o e => o.insert e.1 e.2) empty).guid? c = some g ↔
    (es.filter (fun e => e.2 = g)).getLast? = some (c, g)
  -- the entry that is bound last releases whoever has its place or its driver
  induction es using List.reverseRecOn with
  | nil => exact iff_of_false (fun h => nomatch h) (fun h => nomatch h)
  | append_singleton es e ih =>
      obtain ⟨a, h⟩ := e
      rw [List.map_append, List.nodup_append] at hd
      have hprev := ih hd.1
      rw [List.foldl_append, List.foldl_cons, List.foldl_nil, guid?_insert, List.filter_append]
      by_cases hg : h = g
      · subst hg
        have hlast : [(a, h)].filter (fun e => e.2 = h) = [(a, h)] := by simp
        rw [hlast, List.getLast?_concat, Option.some.injEq, Prod.mk.injEq]
        by_cases hc : a = c
        · simp [hc]
        · simp [hc, Option.filter_eq_some_iff]
      · have hlast : [(a, h)].filter (fun e => e.2 = g) = [] := by simp [hg]
        rw [hlast, List.append_nil, ← hprev]
        by_cases hc : a = c
        · -- no place is listed twice, so the earlier entries leave this one free
          subst hc
          rw [if_pos rfl]
          refine iff_of_false (fun hs => hg (Option.some.inj hs)) (fun hs => ?_)
          have hmem : (a, g) ∈ es :=
            (List.mem_filter.1 (List.mem_of_getLast? (hprev.1 hs))).1
          exact hd.2.2 a (List.mem_map_of_mem hmem) a List.mem_cons_self rfl
        · rw [if_neg hc, Option.filter_eq_some_iff]
          have hne : decide (g ≠ h) = true := decide_eq_true (Ne.symm hg)
          exact and_iff_left hne

end Occupancy

namespace Snapshot

/-- The snapshot enumerated so that the given place comes out last. -/
def listingLast (s : Snapshot) (e : CarId × Guid) (he : e ∈ s.cars.entries) : Snapshot :=
  { s with
    cars :=
      { entries := s.cars.entries.erase e ++ [e]
        distinct :=
          (((List.perm_append_singleton e _).trans (List.perm_cons_erase he).symm).map
            Prod.fst).nodup_iff.2 s.cars.distinct } }

theorem same_listingLast (s : Snapshot) {e : CarId × Guid} (he : e ∈ s.cars.entries) :
    s.Same (s.listingLast e he) :=
  { Same.refl s with
    cars := (List.perm_cons_erase he).trans (List.perm_append_singleton e _).symm }

end Snapshot

namespace Board

theorem cars_ofSnapshot (s : Snapshot) : (ofSnapshot s).cars = .ofListing s.cars := by
  rw [ofSnapshot_eq]

/-- Whoever is enumerated last gets the place. -/
theorem guid?_listingLast (s : Snapshot) {e : CarId × Guid} (he : e ∈ s.cars.entries) :
    (ofSnapshot (s.listingLast e he)).cars.guid? e.1 = some e.2 := by
  rw [cars_ofSnapshot, Occupancy.guid?_ofListing_iff]
  show ((s.cars.entries.erase e ++ [e]).filter (fun x => x.2 = e.2)).getLast? = some e
  simp

/-- Filing records looks at nothing but the files. -/
theorem disconnected_foldl_file {b c : Board} (h : b.disconnected = c.disconnected)
    (ds : List Driver) : (ds.foldl file b).disconnected = (ds.foldl file c).disconnected := by
  induction ds generalizing b c with
  | nil => exact h
  | cons d ds ih =>
      refine ih ?_
      show List.foldl _ b.disconnected _ = List.foldl _ c.disconnected _
      rw [h]

/-- Syncing drivers looks at nothing but the connected records and the files. -/
theorem disconnected_foldl_sync {b c : Board} (hconn : b.connected = c.connected)
    (h : b.disconnected = c.disconnected) (gs : List Guid) :
    (gs.foldl sync b).disconnected = (gs.foldl sync c).disconnected := by
  induction gs generalizing b c with
  | nil => exact h
  | cons g gs ih =>
      refine ih (by rw [connected_sync, connected_sync, hconn]) ?_
      cases hget : c.connected.get? g with
      | none => rw [sync_of_none (hconn ▸ hget), sync_of_none hget, h]
      | some d =>
          rw [sync_of_some (hconn ▸ hget), sync_of_some hget]
          show List.foldl _ (b.disconnected.erase d.slot) _ =
            List.foldl _ (c.disconnected.erase d.slot) _
          rw [h]

/-- What a snapshot lists as places goes to the places of the board alone. -/
theorem ofSnapshot_cars (s : Snapshot) (m : Keyed CarId Guid) :
    ofSnapshot { s with cars := m } = { ofSnapshot s with cars := .ofListing m } := by
  have hfiles : (ofSnapshot { s with cars := m }).disconnected = (ofSnapshot s).disconnected := by
    simp only [ofSnapshot]
    refine disconnected_foldl_sync ?_ (disconnected_foldl_file ?_ _) _
    · rw [connected_foldl_file, connected_foldl_file]
    · rfl
  rw [ofSnapshot_eq, ofSnapshot_eq s, hfiles]
  rfl

/-- Apart from the places, the order of the maps does not show. -/
theorem ofSnapshot_eq_but_cars {s t : Snapshot} (h : s.Same t) :
    ofSnapshot t = { ofSnapshot s with cars := .ofListing t.cars } := by
  -- where nobody is listed at a place, nobody is listed at two
  have hempty : ({ s with cars := .empty } : Snapshot).Same { t with cars := .empty } :=
    { h with cars := List.Perm.refl _ }
  have hsame := ofSnapshot_congr hempty List.nodup_nil
  calc ofSnapshot t
      = { ofSnapshot { t with cars := .empty } with cars := .ofListing t.cars } := by
        rw [← ofSnapshot_cars]
    _ = { ofSnapshot { s with cars := .empty } with cars := .ofListing t.cars } := by rw [hsame]
    _ = { ofSnapshot s with cars := .ofListing t.cars } := by
        rw [ofSnapshot_cars]

/-- **WHAT THE ORDER OF THE MAPS DECIDES**: which of several places a driver gets, namely the one
that comes out last, and nothing else. So the board depends on the snapshot alone exactly if no
driver is listed at two places. -/
theorem ofSnapshot_enumerations (s : Snapshot) :
    (∀ t, s.Same t →
      ofSnapshot t = { ofSnapshot s with cars := (ofSnapshot t).cars } ∧
      ∀ c g, (ofSnapshot t).cars.guid? c = some g ↔
        (t.cars.entries.filter (fun e => e.2 = g)).getLast? = some (c, g)) ∧
    ((∀ t, s.Same t → ofSnapshot t = ofSnapshot s) ↔ s.BindsOnce) := by
  refine ⟨fun t ht => ⟨?_, fun c g => ?_⟩, fun hall => ?_, fun hs t ht => ?_⟩
  · rw [cars_ofSnapshot t]
    exact ofSnapshot_eq_but_cars ht
  · rw [cars_ofSnapshot]
    exact Occupancy.guid?_ofListing_iff t.cars c g
  · -- every place that is listed can come out last, and then it is the one that is occupied
    have hlast : ∀ e ∈ s.cars.entries, (ofSnapshot s).cars.guid? e.1 = some e.2 := by
      intro e he
      rw [← hall _ (s.same_listingLast he)]
      exact guid?_listingLast s he
    refine List.Nodup.map_on ?_ (List.Nodup.of_map _ s.cars.distinct)
    intro x hx y hy hxy
    have hx' := hlast x hx
    have hy' := hlast y hy
    rw [cars_ofSnapshot, Occupancy.guid?_ofListing_iff] at hx' hy'
    rw [hxy] at hx'
    have hplaces : (x.1, y.2) = (y.1, y.2) := Option.some.inj (hx'.symm.trans hy')
    exact Prod.ext (Prod.mk.inj hplaces).1 hxy
  · exact (ofSnapshot_congr ht hs).symm

/-- A driver at two places gets the second of them, and another one when they come out the other
way round. -/
theorem places_of_two_enumerations :
    let s : Snapshot := { cars := ⟨[(3, ⟨"a"⟩), (4, ⟨"a"⟩)], by decide⟩ }
    let t : Snapshot := { cars := ⟨[(4, ⟨"a"⟩), (3, ⟨"a"⟩)], by decide⟩ }
    s.Same t ∧ (ofSnapshot s).cars.guid? 4 = some ⟨"a"⟩ ∧
      (ofSnapshot t).cars.guid? 3 = some ⟨"a"⟩ ∧ ¬ s.BindsOnce := by
  intro s t
  have same : s.Same t := { Snapshot.Same.refl s with cars := List.Perm.swap _ _ _ }
  have hs := (ofSnapshot_enumerations s).1 s (.refl s)
  have ht := (ofSnapshot_enumerations s).1 t same
  exact ⟨same, (hs.2 4 ⟨"a"⟩).2 (by decide), (ht.2 3 ⟨"a"⟩).2 (by decide), by decide⟩

/-- The places of a board do depend on more than the snapshot: the two enumerations of a snapshot
with one driver at two places. -/
theorem places_depend_on_enumeration :
    ¬ ∀ s t : Snapshot, s.Same t → (ofSnapshot s).cars = (ofSnapshot t).cars := by
  intro h
  let s : Snapshot := { cars := ⟨[(3, ⟨"a"⟩), (4, ⟨"a"⟩)], by decide⟩ }
  let t : Snapshot := { cars := ⟨[(4, ⟨"a"⟩), (3, ⟨"a"⟩)], by decide⟩ }
  have same : s.Same t := { Snapshot.Same.refl s with cars := List.Perm.swap _ _ _ }
  have hcars : Occupancy.ofListing s.cars = Occupancy.ofListing t.cars := by
    rw [← cars_ofSnapshot, ← cars_ofSnapshot]
    exact h s t same
  exact absurd hcars (by decide)

end Board

end Pitwall
