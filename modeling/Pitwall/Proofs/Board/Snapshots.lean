import Pitwall.Proofs.Board.Bare
import Pitwall.Proofs.Board.Filing

/-!
# Snapshots — what a board that a snapshot leaves answers

Under the GUID of a driver, a board that a snapshot describes has the record that stands there in
the snapshot (**`Board.get?_connected_ofSnapshot`**), and a marker if the driver has loaded
(**`Board.get?_markers_ofSnapshot`**). Markers of the board before are taken over on top of that:
**`Board.get?_takeOverMarkers`** says which, and taking them over again changes nothing
(**`Board.takeOverMarkers_again`**). What comes of both is **`Board.get?_markers_resync`**.
-/

namespace Pitwall

/-! ## Records -/

namespace Roster

/-- The records of a group, by their own GUIDs, are the entries of the map in order of rank. -/
theorem exists_ranked_eq (g : Roster) : ∃ m : Keyed Guid Driver,
    (∀ k, m.get? k = g.drivers.get? k) ∧
      g.ranked.map (fun d => (d.guid, d)) = m.entries.map (fun e => (e.1, e.2.withGuid e.1)) := by
  refine ⟨((Table.ofList g.drivers.entries).toKeyed.arrange g.order), fun k => ?_, ?_⟩
  · rw [Keyed.get?_arrange]
    exact Table.get?_ofList g.drivers.distinct k
  · rw [ranked, List.map_map]
    rfl

theorem nodup_guids_ranked (g : Roster) : (g.ranked.map Driver.guid).Nodup := by
  rw [ranked, List.map_map]
  exact ((Table.ofList g.drivers.entries).toKeyed.arrange g.order).distinct

/-- Under a GUID stands the record that the map has there, with that GUID. -/
theorem value?_ranked (g : Roster) (a : Guid) :
    Entries.value? a (g.ranked.map (fun d => (d.guid, d))) =
      (g.drivers.get? a).map (·.withGuid a) := by
  obtain ⟨m, hget, hentries⟩ := g.exists_ranked_eq
  rw [hentries, ← hget a]
  exact Entries.value?_map a (fun k d => d.withGuid k) m.entries

end Roster

namespace Board

/-- **THE SNAPSHOT'S RECORD**: the driver who is connected under a GUID is the one that the snapshot
lists under it. -/
theorem get?_connected_ofSnapshot (s : Snapshot) (g : Guid) :
    (ofSnapshot s).connected.get? g =
      (s.connected.bind (·.drivers.get? g)).map (·.withGuid g) := by
  rw [connected_ofSnapshot]
  cases s.connected with
  | none => rfl
  | some roster =>
      have hd : ((roster.ranked.map (fun d => (d.guid, d))).map Prod.fst).Nodup := by
        rw [List.map_map]
        exact roster.nodup_guids_ranked
      show (Keyed.ofList (roster.ranked.map _)).get? g = (roster.drivers.get? g).map _
      rw [Keyed.get?_ofList hd]
      exact roster.value?_ranked g

/-! ## Markers of a snapshot -/

theorem get?_snapshotMarkers (m : Keyed Guid Driver) (g : Guid) :
    (snapshotMarkers m).get? g = ((m.get? g).filter Driver.isLoaded).map snapshotMarker := by
  suffices hs : ∀ (es : List (Guid × Driver)) (t : Table Guid Marker), (es.map Prod.fst).Nodup →
      (es.foldl (fun t e => if e.2.isLoaded then t.insert e.1 (snapshotMarker e.2) else t)
        t).get? g =
        (((Entries.value? g es).filter Driver.isLoaded).map snapshotMarker).or (t.get? g) by
    rw [snapshotMarkers, hs _ _ m.distinct, Table.get?_empty, Option.or_none]
    rfl
  intro es
  induction es with
  | nil => exact fun t _ => rfl
  | cons e es ih =>
      intro t hd
      rw [List.map_cons, List.nodup_cons] at hd
      rw [List.foldl_cons, ih _ hd.2, Entries.value?_cons]
      by_cases hg : e.1 = g
      · -- nothing comes later under this key
        have hnone : Entries.value? g es = none := Entries.value?_eq_none_iff.2 (hg ▸ hd.1)
        rw [hnone, if_pos hg]
        cases hload : e.2.isLoaded with
        | true => simp [Table.get?_insert, hg, Option.filter_some, hload]
        | false => simp [Option.filter_some, hload]
      · rw [if_neg hg]
        split
        · rw [Table.get?_insert, if_neg hg]
        · rfl

/-- A snapshot has markers for the connected drivers who have loaded. -/
theorem get?_markers_ofSnapshot (s : Snapshot) (g : Guid) :
    (ofSnapshot s).markers.get? g =
      (((ofSnapshot s).connected.get? g).filter Driver.isLoaded).map snapshotMarker := by
  have hmarkers : (ofSnapshot s).markers = snapshotMarkers (ofSnapshot s).connected := by
    rw [connected_ofSnapshot]
    rfl
  rw [hmarkers, get?_snapshotMarkers]

end Board

/-! ## Taking over markers -/

namespace Board

/-- A marker as it is taken over: telemetry for the marker that the driver has, or all of it. -/
def takenOver (b : Board) (g : Guid) (earlier : Marker) : Marker :=
  (b.markers.get? g).elim earlier (·.withTelemetryOf earlier)

/-- Earlier markers are taken over for connected drivers, once each. -/
theorem get?_takeOverMarkers (b : Board) (earlier : Table Guid Marker) (g : Guid) :
    (b.takeOverMarkers earlier).markers.get? g =
      if b.connected.contains g then ((earlier.get? g).map (b.takenOver g)).or (b.markers.get? g)
      else b.markers.get? g := by
  suffices h : ∀ (es : List (Guid × Marker)) (b : Board), (es.map Prod.fst).Nodup →
      (es.foldl (fun b e => b.takeOverMarker e.1 e.2) b).markers.get? g =
        if b.connected.contains g then
          ((Entries.value? g es).map (b.takenOver g)).or (b.markers.get? g)
        else b.markers.get? g from h earlier.entries b earlier.nodup_keys
  intro es
  -- on the entries, for any board: taking over one of them changes the board for the others
  induction es with
  | nil =>
      intro b _
      split <;> rfl
  | cons e es ih =>
      intro b hd
      rw [List.map_cons, List.nodup_cons] at hd
      rw [List.foldl_cons, ih _ hd.2, Entries.value?_cons]
      have hconn : (b.takeOverMarker e.1 e.2).connected = b.connected := by
        rw [takeOverMarker]
        split <;> rfl
      by_cases hg : e.1 = g
      · -- the entry of the driver comes once, so what is taken over now stays
        subst hg
        have hnone : Entries.value? e.1 es = none := Entries.value?_eq_none_iff.2 hd.1
        rw [hnone, hconn, if_pos rfl]
        cases hc : b.connected.contains e.1 with
        | false =>
            rw [takeOverMarker, hc]
            rfl
        | true =>
            rw [takeOverMarker, hc, if_pos rfl, if_pos rfl]
            show (Table.insert _ _ _).get? _ = _
            rw [Table.get?_insert, if_pos rfl]
            rfl
      · have hmarker : (b.takeOverMarker e.1 e.2).markers.get? g = b.markers.get? g := by
          rw [takeOverMarker]
          split
          · show (Table.insert _ _ _).get? _ = _
            rw [Table.get?_insert, if_neg hg]
          · rfl
        have htaken : (b.takeOverMarker e.1 e.2).takenOver g = b.takenOver g := by
          funext x
          rw [takenOver, takenOver, hmarker]
        rw [hconn, hmarker, htaken, if_neg hg]

end Board

namespace Board

/-- **THE MARKER THAT A SNAPSHOT LEAVES**: that of a driver who has loaded shows the snapshot, with
the telemetry of an earlier one, that of a connected driver who has not loaded is the earlier one,
and nobody else has a marker. -/
theorem get?_markers_resync (s : Snapshot) (earlier : Table Guid Marker) (g : Guid) :
    ((ofSnapshot s).takeOverMarkers earlier).markers.get? g =
      ((ofSnapshot s).connected.get? g).bind (fun d =>
        if d.isLoaded then
          some ((earlier.get? g).elim (snapshotMarker d) (snapshotMarker d).withTelemetryOf)
        else earlier.get? g) := by
  rw [get?_takeOverMarkers, Keyed.contains_eq_isSome]
  have htaken : (ofSnapshot s).takenOver g = fun earlier =>
      ((ofSnapshot s).markers.get? g).elim earlier (·.withTelemetryOf earlier) := rfl
  rw [htaken, get?_markers_ofSnapshot]
  cases hd : (ofSnapshot s).connected.get? g with
  | none => rfl
  | some d =>
      cases hload : d.isLoaded with
      | true => cases earlier.get? g <;> simp [Option.filter_some, hload]
      | false => cases earlier.get? g <;> simp [Option.filter_some, hload]

end Board

end Pitwall
