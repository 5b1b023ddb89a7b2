import Pitwall.Display.View
import Pitwall.Proofs.Board.Standing
import Pitwall.Proofs.Engine.Filed

/-!
# The table of a race — what is shown after the standings were sorted

The view numbers the connected drivers in the order in which they are kept, and the clock takes the
first of them for the leader. Neither looks at laps: that the first one leads, and that the table is
in order, is what the periodic job sees to. **`Engine.race_table`** follows a race through all of
them: the drivers as they are kept, their order, the rows, and the laps that remain.
-/

namespace Pitwall

/-! ## Rows -/

namespace View

variable (v : View) (rank : Nat) (d : Driver)

@[simp] theorem rank_connectedPlacing : (v.connectedPlacing rank d).rank = rank := by
  rw [connectedPlacing]
  cases d.sheet? <;> rfl

@[simp] theorem guid_connectedPlacing : (v.connectedPlacing rank d).guid = d.guid := by
  rw [connectedPlacing]
  cases d.sheet? <;> rfl

@[simp] theorem totalLaps_connectedPlacing :
    (v.connectedPlacing rank d).totalLaps = d.totalLaps := by
  rw [connectedPlacing]
  cases d.sheet? <;> rfl

/-- What a row takes from its record alone can be read off the records in their order. -/
theorem map_placings {α : Type} {placing : Nat → Driver → Placing} {part : Placing → α}
    {source : Driver → α} (h : ∀ rank d, part (placing rank d) = source d) (drivers : List Driver) :
    (placings placing drivers).map part = drivers.map source := by
  refine List.ext_getElem (by simp [placings]) fun i _ _ => ?_
  simp [placings, h]

/-- Rows are numbered from 1, without gaps. -/
theorem map_rank_placings {placing : Nat → Driver → Placing}
    (h : ∀ rank d, (placing rank d).rank = rank) (drivers : List Driver) :
    (placings placing drivers).map Placing.rank = List.range' 1 drivers.length := by
  refine List.ext_getElem (by simp [placings]) fun i _ _ => ?_
  simp [placings, h, Nat.add_comm]

/-- A row is the placing of a record under its own number. -/
theorem eq_of_mem_placings {placing : Nat → Driver → Placing} {drivers : List Driver} {r : Placing}
    (hr : r ∈ placings placing drivers) : ∃ rank, ∃ d ∈ drivers, r = placing rank d := by
  obtain ⟨i, hi, rfl⟩ := List.mem_mapIdx.1 hr
  exact ⟨i + 1, drivers[i], List.getElem_mem hi, rfl⟩

end View

/-! ## Records in their order -/

namespace Keyed

variable {m : Keyed Guid Driver}

/-- Where records stand under their own GUIDs, the keys are the GUIDs of the records. -/
theorem map_guid_values (own : ∀ g d, m.get? g = some d → d.guid = g) :
    m.values.map Driver.guid = m.keys := by
  rw [values, List.map_map, keys]
  exact List.map_congr_left fun e he => own e.1 e.2 (get?_eq_some_iff.2 he)

/-- Keys in the order of their records are records in order. -/
theorem pairwise_values_of_before {order : Driver → Driver → Ordering}
    (h : m.keys.Pairwise (m.Before fun a b => order a.2 b.2)) :
    m.values.Pairwise (fun a b => order a b = .lt) := by
  rw [keys, List.pairwise_map] at h
  rw [values, List.pairwise_map]
  refine h.imp_of_mem ?_
  rintro a b ha hb ⟨d, hd, e, he, hlt⟩
  rw [get?_eq_some_iff.2 ha] at hd
  rw [get?_eq_some_iff.2 hb] at he
  cases hd
  cases he
  exact hlt

/-- The most laps of any driver, none where there is no driver. -/
def mostLaps (m : Keyed Guid Driver) : Nat := (m.values.map (·.totalLaps.toNat)).max?.getD 0

/-- The most laps are those of a driver whom nobody is ahead of. -/
theorem mostLaps_eq {d : Driver} (hd : d ∈ m.values)
    (hmost : ∀ a ∈ m.values, a.totalLaps ≤ d.totalLaps) : m.mostLaps = d.totalLaps.toNat := by
  have hmax : (m.values.map (·.totalLaps.toNat)).max? = some d.totalLaps.toNat := by
    refine List.max?_eq_some_iff.2 ⟨List.mem_map_of_mem hd, ?_⟩
    intro n hn
    obtain ⟨a, ha, rfl⟩ := List.mem_map.1 hn
    exact UInt32.le_iff_toNat_le.1 (hmost a ha)
  rw [mostLaps, hmax, Option.getD_some]

end Keyed

namespace Driver

/-- Who stands before another one in a race has as many laps at least. -/
theorem totalLaps_le_of_racingOrder {a b : Driver} (h : a.racingOrder b = .lt) :
    b.totalLaps ≤ a.totalLaps := by
  rw [racingOrder, Ordering.then_eq_lt] at h
  rcases h with hlt | ⟨heq, -⟩
  · exact UInt32.le_of_lt (compareOfLessAndEq_eq_lt.1 hlt)
  · rw [Std.LawfulEqOrd.eq_of_compare heq]
    exact UInt32.le_refl _

end Driver

/-! ## Sorted for a race -/

namespace Keyed

variable {m : Keyed Guid Driver}

theorem keys_race (m : Keyed Guid Driver) :
    (m.arrange (standing .race m)).keys = standing .race m :=
  keys_arrange (sortedKeys_perm m)

/-- Sorted for a race, every driver stands before those behind. -/
theorem before_race (own : ∀ g d, m.get? g = some d → d.guid = g) :
    (m.arrange (standing .race m)).keys.Pairwise (m.Before fun a b => a.2.racingOrder b.2) := by
  rw [keys_race]
  exact pairwise_sortedKeys (fst_eq_of_racingOrder own)

/-- Sorted for a race, nobody has fewer laps than a driver behind. -/
theorem laps_race (own : ∀ g d, m.get? g = some d → d.guid = g) :
    (m.arrange (standing .race m)).values.Pairwise (fun a b => b.totalLaps ≤ a.totalLaps) := by
  have hbefore := before_race own
  have hagree : (m.arrange (standing .race m)).Before (fun a b => a.2.racingOrder b.2) =
      m.Before (fun a b => a.2.racingOrder b.2) := by
    funext g k
    rw [Before, Before, get?_arrange, get?_arrange]
  rw [← hagree] at hbefore
  exact (pairwise_values_of_before hbefore).imp Driver.totalLaps_le_of_racingOrder

/-- Sorted for a race, the first driver has the most laps. -/
theorem head_race (own : ∀ g d, m.get? g = some d → d.guid = g) :
    ((m.arrange (standing .race m)).values.head?.elim 0 Driver.totalLaps).toNat = m.mostLaps := by
  have hsame (d : Driver) : d ∈ (m.arrange (standing .race m)).values ↔ d ∈ m.values := by
    rw [mem_values_iff, mem_values_iff]
    simp only [get?_arrange]
  have hlaps := laps_race own
  cases hvalues : (m.arrange (standing .race m)).values with
  | nil =>
      have hnobody : m.values = [] := by
        refine List.eq_nil_iff_forall_not_mem.2 fun d hd => ?_
        rw [← hsame, hvalues] at hd
        exact List.not_mem_nil hd
      rw [mostLaps, hnobody]
      rfl
  | cons d ds =>
      rw [hvalues] at hsame hlaps
      refine (mostLaps_eq ((hsame d).1 List.mem_cons_self) fun a ha => ?_).symm
      rcases List.mem_cons.1 ((hsame a).2 ha) with rfl | ha
      · exact UInt32.le_refl _
      · exact List.rel_of_pairwise_cons hlaps ha

end Keyed

/-- Where the clock shows laps, it shows what the leader has left of the scheduled ones. -/
theorem Board.laps_of_progress {b : Board} {now : Instant} {laps : Int}
    (h : b.progress now = .lapsRemaining laps) :
    laps = b.session.laps.toNat - (b.leader?.elim 0 Driver.totalLaps).toNat := by
  simp only [Board.progress] at h
  split at h
  · cases h
  · split at h
    · cases h
    · split at h
      · cases h
      · split at h
        · exact (Progress.lapsRemaining.inj h).symm
        · cases h

namespace Engine

/-- The job of the standings arranges the drivers of both kinds. -/
theorem board_tick_standings {e : Engine} (h : e.board.initialised = true) (due : Instant) :
    (e.tick .standings due).1.board = e.board.rankConnected.rankDisconnected := by
  rw [tick, if_neg (by simp [h])]
  rfl

/-- **THE TABLE OF A RACE**: once the standings of a race were sorted, whatever happened before, the
view has one row for each connected driver, numbered 1, 2, ... from the top. Each row shows the
record of its driver, which the sorting has not touched; laps never go up on the way down, and by
the order of a race each driver stands before those behind. As long as the clock shows laps, it
shows what the drivers with the most laps have left of the scheduled ones. -/
theorem race_table {e : Engine} (h : e.Reachable) (hready : e.board.initialised = true)
    (hrace : e.board.session.kind = .race) (due : Instant) (unit : SpeedUnit) (now : Instant) :
    let v : View := ⟨(e.tick .standings due).1, unit, now⟩
    (v.standings.map Placing.guid).Perm e.board.connected.keys ∧
    v.standings.map Placing.rank = List.range' 1 e.board.connected.size ∧
    (∀ r ∈ v.standings, ∃ d, e.board.connected.get? r.guid = some d ∧
      r = v.connectedPlacing r.rank d) ∧
    v.standings.Pairwise (fun r s => s.totalLaps ≤ r.totalLaps) ∧
    (v.standings.map Placing.guid).Pairwise
      (e.board.connected.Before fun a b => a.2.racingOrder b.2) ∧
    ∀ laps, v.progress = .lapsRemaining laps →
      laps = e.board.session.laps.toNat - e.board.connected.mostLaps := by
  intro v
  have own := h.filed.own
  let m := e.board.connected
  let sorted := m.arrange (standing .race m)
  have hboard : v.engine.board = e.board.rankConnected.rankDisconnected :=
    board_tick_standings hready due
  have hconnected : v.engine.board.connected = sorted := by
    rw [hboard]
    show m.arrange (standing e.board.session.kind m) = sorted
    rw [hrace]
  have hrows : v.standings = View.placings v.connectedPlacing sorted.values := by
    rw [View.standings, hconnected]
  have hown : ∀ g d, sorted.get? g = some d → d.guid = g := by
    intro g d hd
    exact own g d (Keyed.get?_arrange m _ g ▸ hd)
  have hguids : v.standings.map Placing.guid = sorted.keys := by
    rw [hrows, View.map_placings v.guid_connectedPlacing, Keyed.map_guid_values hown]
  have hperm : sorted.keys.Perm m.keys := by
    rw [Keyed.keys_race]
    exact sortedKeys_perm m
  refine ⟨hguids ▸ hperm, ?_, ?_, ?_, hguids ▸ Keyed.before_race own, ?_⟩
  · rw [hrows, View.map_rank_placings v.rank_connectedPlacing]
    have hsize := hperm.length_eq
    rw [Keyed.keys, Keyed.keys, List.length_map, List.length_map] at hsize
    rw [Keyed.values, List.length_map, hsize]
    rfl
  · intro r hr
    obtain ⟨rank, d, hd, rfl⟩ := View.eq_of_mem_placings (hrows ▸ hr)
    obtain ⟨g, hg⟩ := Keyed.mem_values_iff.1 hd
    refine ⟨d, ?_, by rw [v.rank_connectedPlacing]⟩
    rw [v.guid_connectedPlacing, hown g d hg, ← hg]
    exact (Keyed.get?_arrange m _ g).symm
  · have hlaps : (v.standings.map Placing.totalLaps).Pairwise (fun a b => b ≤ a) := by
      rw [hrows, View.map_placings v.totalLaps_connectedPlacing]
      exact List.pairwise_map.2 (Keyed.laps_race own)
    exact List.pairwise_map.1 hlaps
  · intro laps hprogress
    have hleader : (v.engine.board.leader?.elim 0 Driver.totalLaps).toNat = m.mostLaps := by
      rw [Board.leader?, hconnected]
      exact Keyed.head_race own
    have hsession : v.engine.board.session = e.board.session := by rw [hboard]; rfl
    rw [Board.laps_of_progress hprogress, hleader, hsession]

/-- A race over twelve laps; the server lists a driver with three laps before one with five. -/
def raceOfTwo : Input :=
  .event (.snapshot
    { session := { kind := .race, laps := 12 }
      connected := some
        { drivers := .ofList
            [(⟨"a"⟩, { car := { guid := ⟨"a"⟩ }, totalLaps := 3 }),
             (⟨"b"⟩, { car := { guid := ⟨"b"⟩ }, totalLaps := 5 })]
          order := [⟨"a"⟩, ⟨"b"⟩] } }) .zero

/-- The table puts the driver with five laps first, and seven laps remain. -/
theorem race_table_of_two :
    let v : View := ⟨((initial.run [raceOfTwo]).tick .standings .zero).1, .kmh, .zero⟩
    v.standings.map Placing.guid = [⟨"b"⟩, ⟨"a"⟩] ∧
    v.standings.map Placing.rank = [1, 2] ∧
    v.progress = .lapsRemaining 7 := by
  intro v
  obtain ⟨hguids, hranks, -, -, hbefore, hlaps⟩ := race_table ⟨[raceOfTwo], rfl⟩
    (by decide +kernel) (by decide +kernel) .zero .kmh .zero
  refine ⟨?_, ?_, ?_⟩
  · have hkeys : (initial.run [raceOfTwo]).board.connected.keys = [⟨"a"⟩, ⟨"b"⟩] := by
      decide +kernel
    rw [hkeys] at hguids
    refine (hguids.trans (.swap ..)).eq_of_pairwise ?_ hbefore (by decide +kernel)
    intro g k _ _ hgk hkg
    exact (hgk.asymm hkg).elim
  · have hsize : (initial.run [raceOfTwo]).board.connected.size = 2 := by decide +kernel
    rw [hranks, hsize]
    rfl
  · obtain ⟨laps, hprogress⟩ : ∃ laps, v.progress = .lapsRemaining laps := by
      have hshown : (match v.progress with | .lapsRemaining _ => true | _ => false) = true := by
        decide +kernel
      cases hp : v.progress with
      | lapsRemaining laps => exact ⟨laps, rfl⟩
      | _ => rw [hp] at hshown; cases hshown
    have hmost : (initial.run [raceOfTwo]).board.connected.mostLaps = 5 := by decide +kernel
    rw [hprogress, hlaps laps hprogress, hmost]
    rfl

end Engine

end Pitwall
