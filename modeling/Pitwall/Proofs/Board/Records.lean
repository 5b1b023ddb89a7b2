import Pitwall.Proofs.Board.SameRecords
import Pitwall.Proofs.Board.Snapshots
import Pitwall.Proofs.Engine.Driving

/-!
# Records — what holds of every record of a board

The records of a board, of connected drivers and on file, go from one map to the other and from one
car to the next, but few things that happen to a board make a record. So what holds of a record
whatever the car is (**`Driver.AnyCar`**) goes on holding of all records when drivers leave, and
when they come if it holds of the record they get (**`Board.Records.connect`**). A snapshot makes
no records but those that it lists: **`Board.records_ofSnapshot`**.
-/

namespace Pitwall

namespace Driver

/-- What holds of a record holds of it in every car. -/
def AnyCar (P : Driver → Prop) : Prop := ∀ (d : Driver) (car : CarInfo), P d → P { d with car }

variable {P : Driver → Prop}

theorem AnyCar.variant (hP : AnyCar P) {d r : Driver} {m : String} (hd : P d)
    (hr : d.variant? m = some r) : P r := by
  obtain ⟨s, -, rfl⟩ := Option.map_eq_some_iff.1 hr
  exact hP d _ hd

theorem AnyCar.variants (hP : AnyCar P) {d : Driver} (hd : P d) (models : List String) :
    ∀ r ∈ d.variants models, P r := by
  intro r hr
  obtain ⟨m, -, hm⟩ := List.mem_filterMap.1 hr
  exact hP.variant hd hm

end Driver

namespace Roster

/-- The records of a group are those of the map, each under the GUID of its key. -/
theorem exists_of_mem_ranked {g : Roster} {d : Driver} (h : d ∈ g.ranked) :
    ∃ c ∈ g.drivers.values, ∃ guid, d = c.withGuid guid := by
  obtain ⟨m, hget, hentries⟩ := g.exists_ranked_eq
  have hmem : (d.guid, d) ∈ g.ranked.map (fun d => (d.guid, d)) := List.mem_map_of_mem h
  rw [hentries] at hmem
  obtain ⟨e, he, heq⟩ := List.mem_map.1 hmem
  have hvalue : g.drivers.get? e.1 = some e.2 := (hget e.1).symm.trans (Keyed.get?_eq_some_iff.2 he)
  exact ⟨e.2, Keyed.mem_values_iff.2 ⟨e.1, hvalue⟩, e.1, (Prod.mk.inj heq).2.symm⟩

end Roster

namespace Snapshot

/-- Every record that a snapshot lists is of a kind. -/
structure Lists (s : Snapshot) (P : Driver → Prop) : Prop where
  connected : ∀ g ∈ s.connected, ∀ d ∈ g.drivers.values, P d
  disconnected : ∀ g ∈ s.disconnected, ∀ d ∈ g.drivers.values, P d

instance (s : Snapshot) (P : Driver → Prop) [DecidablePred P] : Decidable (s.Lists P) :=
  decidable_of_iff ((∀ g ∈ s.connected, ∀ d ∈ g.drivers.values, P d) ∧
      ∀ g ∈ s.disconnected, ∀ d ∈ g.drivers.values, P d)
    ⟨fun ⟨hconn, hfiles⟩ => ⟨hconn, hfiles⟩, fun h => ⟨h.connected, h.disconnected⟩⟩

theorem Lists.imp {s : Snapshot} {P Q : Driver → Prop} (h : s.Lists P) (hPQ : ∀ d, P d → Q d) :
    s.Lists Q :=
  ⟨fun g hg d hd => hPQ d (h.connected g hg d hd),
    fun g hg d hd => hPQ d (h.disconnected g hg d hd)⟩

end Snapshot

namespace Board

variable {b : Board} {P Q : Driver → Prop}

/-! ## On file -/

theorem files_fileAll (h : b.disconnected.All P) {rs : List Driver} (hrs : ∀ r ∈ rs, P r) :
    (b.fileAll rs).disconnected.All P := by
  induction rs generalizing b with
  | nil => exact h
  | cons r rs ih =>
      rw [fileAll_cons]
      exact ih (h.insert r.slot (hrs r List.mem_cons_self)) fun q hq =>
        hrs q (List.mem_cons_of_mem r hq)

theorem files_file (hP : Driver.AnyCar P) (h : b.disconnected.All P) {d : Driver} (hd : P d) :
    (b.file d).disconnected.All P := by
  refine files_fileAll h ?_
  intro r hr
  rcases List.mem_append.1 hr with hr | hr
  · split at hr
    · exact absurd hr List.not_mem_nil
    · rw [List.mem_singleton.1 hr]
      exact hd
  · exact hP.variants hd _ r hr

theorem files_sync (hP : Driver.AnyCar P) (h : b.disconnected.All P) {g : Guid}
    (hconn : ∀ d, b.connected.get? g = some d → P d) : (b.sync g).disconnected.All P := by
  cases hd : b.connected.get? g with
  | none =>
      rw [sync_of_none hd]
      exact h
  | some d =>
      rw [sync_of_some hd]
      exact files_fileAll (h.erase d.slot) (hP.variants (hconn d hd) _)

theorem files_foldl_file (hP : Driver.AnyCar P) (h : b.disconnected.All P) {ds : List Driver}
    (hds : ∀ d ∈ ds, P d) : (ds.foldl file b).disconnected.All P := by
  induction ds generalizing b with
  | nil => exact h
  | cons d ds ih =>
      exact ih (files_file hP h (hds d List.mem_cons_self)) fun c hc =>
        hds c (List.mem_cons_of_mem d hc)

theorem files_foldl_sync (hP : Driver.AnyCar P) (h : b.disconnected.All P)
    (hconn : b.connected.All P) (gs : List Guid) : (gs.foldl sync b).disconnected.All P := by
  induction gs generalizing b with
  | nil => exact h
  | cons g gs ih =>
      refine ih (files_sync hP h (hconn g)) ?_
      rw [connected_sync]
      exact hconn

/-! ## All records -/

/-- Every record of the board is of a kind. -/
structure Records (b : Board) (P : Driver → Prop) : Prop where
  connected : b.connected.All P
  disconnected : b.disconnected.All P

namespace Records

theorem empty : Records {} P := ⟨.empty, .empty⟩

theorem imp (h : b.Records P) (hPQ : ∀ d, P d → Q d) : b.Records Q :=
  ⟨h.connected.imp hPQ, h.disconnected.imp hPQ⟩

/-- Markers do not matter. -/
theorem takeOverMarkers (h : b.Records P) (earlier : Table Guid Marker) :
    (b.takeOverMarkers earlier).Records P := by
  refine ⟨?_, ?_⟩
  · rw [connected_takeOverMarkers]
    exact h.connected
  · rw [disconnected_takeOverMarkers]
    exact h.disconnected

/-- Who is taken off is filed, in some cars. -/
theorem purge (hP : Driver.AnyCar P) (h : b.Records P) (g : Guid) : (b.purge g).Records P := by
  cases hd : b.connected.get? g with
  | none =>
      rw [purge_of_none hd]
      exact ⟨h.connected.erase g, h.disconnected⟩
  | some d =>
      rw [purge_of_some hd]
      exact ⟨h.connected.erase g,
        files_fileAll (b := b.remove g) h.disconnected (hP.variants (h.connected g d hd) _)⟩

theorem leave (hP : Driver.AnyCar P) (h : b.Records P) {g : Guid} {d : Driver}
    (hd : b.connected.get? g = some d) : ((b.remove g).file d).Records P :=
  ⟨h.connected.erase g, files_file (b := b.remove g) hP h.disconnected (h.connected g d hd)⟩

/-- The record of a driver who connects is made. -/
theorem connect (hP : Driver.AnyCar P) (h : b.Records P) {car : CarInfo} {now : Instant}
    (hjoin : P (b.joining car now)) : (b.connect car now).Records P := by
  have hentered : (b.entering car now).connected.All P := h.connected.insert car.guid hjoin
  refine ⟨?_, ?_⟩
  · show ((b.entering car now).sync car.guid).connected.All P
    rw [connected_sync]
    exact hentered
  · exact files_sync (b := b.entering car now) hP h.disconnected (hentered car.guid)

/-- A leaderboard gives records other numbers of laps. -/
theorem foldl_raiseLaps (h : b.Records P)
    (hlaps : ∀ (d : Driver) (n : UInt32), n.toNat < UInt16.size → P d → P { d with totalLaps := n })
    (lines : List LeaderboardLine) : (lines.foldl raiseLaps b).Records P := by
  refine ⟨?_, ?_⟩
  · intro g c hc
    obtain ⟨f, hf, hget⟩ := b.get?_foldl_raiseLaps lines g
    rw [hget] at hc
    obtain ⟨d, hd, rfl⟩ := Option.map_eq_some_iff.1 hc
    rcases hf d.totalLaps with hsame | hless
    · rw [hsame]
      exact h.connected g d hd
    · exact hlaps d _ hless (h.connected g d hd)
  · rw [foldl_raiseLaps_eq]
    exact h.disconnected

theorem rank (h : b.Records P) : b.rankConnected.rankDisconnected.Records P :=
  ⟨h.connected.arrange _, h.disconnected.arrange _⟩

end Records

/-- A driver who connects gets a new record, picks one up or keeps one. -/
theorem joining_cases (b : Board) {car : CarInfo} {now : Instant} (hnew : Q (.ofCar car now))
    (hback : ∀ m r, b.disconnected.get? ⟨car.guid, m⟩ = some r → Q (resumed r car now))
    (hagain : ∀ d, b.connected.get? car.guid = some d → Q (rejoining d car now)) :
    Q (b.joining car now) := by
  rw [joining]
  cases hd : b.connected.get? car.guid with
  | some d => exact hagain d hd
  | none =>
      show Q (b.arriving car now)
      rw [arriving_eq]
      cases hr : b.history? car with
      | none => exact hnew
      | some r =>
          obtain ⟨m, hm⟩ := exists_filed_of_history? hr
          exact hback m r hm

/-- **THE RECORDS OF A SNAPSHOT'S BOARD** are those that the snapshot lists, in their cars. -/
theorem records_ofSnapshot (hP : Driver.AnyCar P) {s : Snapshot} (hs : s.Lists P) :
    (ofSnapshot s).Records P := by
  have hranked : ∀ o : Option Roster, (∀ g ∈ o, ∀ d ∈ g.drivers.values, P d) →
      ∀ d ∈ o.elim [] Roster.ranked, P d := by
    intro o ho d hd
    cases o with
    | none => exact absurd hd List.not_mem_nil
    | some g =>
        obtain ⟨c, hc, guid, rfl⟩ := Roster.exists_of_mem_ranked hd
        exact hP c _ (ho g rfl c hc)
  have hconn : (ofSnapshot s).connected.All P := by
    intro g d hd
    rw [connected_ofSnapshot] at hd
    obtain ⟨c, hc, heq⟩ := List.mem_map.1 (Keyed.mem_of_get?_ofList hd)
    cases heq
    exact hranked _ hs.connected d hc
  refine ⟨hconn, ?_⟩
  refine files_foldl_sync (b := List.foldl file _ _) hP ?_ ?_ _
  · exact files_foldl_file hP .empty (hranked _ hs.disconnected)
  · rw [connected_foldl_file]
    rw [connected_ofSnapshot] at hconn
    exact hconn

end Board

end Pitwall
