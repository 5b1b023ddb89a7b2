import Pitwall.Proofs.Board.Snapshots
import Pitwall.Proofs.Data.Lineup

/-!
# Slots — what is filed for a driver in a car

Under a slot stands at most one record. Filing a driver puts one there for each car of the record
(**`Board.get?_file_eq`**), syncing a connected driver clears the active car and files the others
anew (**`Board.get?_sync_own`**), and neither reaches the slots of anybody else. A snapshot files
all drivers who left and then syncs all who are connected, so each slot can be told from the two
records that the snapshot lists under the GUID, whatever order the records come in:
**`Board.filed_exactly_once`**.
-/

namespace Pitwall

namespace Driver

/-- The record that filing a driver leaves for a car: the record made one in that car, or the record
as it is where the active car has no sheet. -/
def inCar? (d : Driver) (m : String) : Option Driver :=
  (d.variant? m).or (if m = d.model then some d else none)

variable {d : Driver} {m : String}

theorem variant?_eq_none_iff : d.variant? m = none ↔ m ∉ d.sheets.keys := by
  rw [variant?, Option.map_eq_none_iff, Table.get?_eq_none_iff]

theorem isSome_variant?_iff : (d.variant? m).isSome = true ↔ m ∈ d.sheets.keys := by
  rw [Option.isSome_iff_ne_none, Ne, variant?_eq_none_iff, Classical.not_not]

theorem isSome_inCar?_iff : (d.inCar? m).isSome = true ↔ m ∈ d.sheets.keys ∨ m = d.model := by
  rw [inCar?, Option.isSome_or, Bool.or_eq_true, isSome_variant?_iff]
  refine or_congr_right ?_
  split
  · next hm => exact iff_of_true rfl hm
  · next hm => exact iff_of_false (fun h => nomatch h) hm

end Driver

namespace Board

variable {b : Board} {k : Slot} {d : Driver}

/-- **FILING ONE DRIVER**, under a slot. -/
theorem get?_file_eq (b : Board) (d : Driver) (k : Slot) :
    (b.file d).disconnected.get? k =
      if k.guid = d.guid then (d.inCar? k.model).or (b.disconnected.get? k)
      else b.disconnected.get? k := by
  obtain ⟨g, m⟩ := k
  rw [get?_file, Driver.variantAt?]
  by_cases hg : g = d.guid
  · subst hg
    rw [if_pos rfl, Driver.inCar?, Option.or_assoc]
    by_cases hm : m ∈ d.sheets.keys
    · -- the car has a sheet, so there is a variant
      obtain ⟨r, hr⟩ := Option.isSome_iff_exists.1 (Driver.isSome_variant?_iff.2 hm)
      rw [if_pos ⟨rfl, hm⟩, hr, Option.some_or, Option.some_or]
    · rw [if_neg (fun h => hm h.2), Driver.variant?_eq_none_iff.2 hm, Option.none_or,
        Option.none_or]
      by_cases hactive : m = d.model
      · subst hactive
        rw [if_pos ⟨rfl, hm⟩, if_pos rfl, Option.some_or]
      · have hslot : (⟨d.guid, m⟩ : Slot) ≠ d.slot := fun h => hactive (congrArg Slot.model h)
        rw [if_neg (fun h => hslot h.1), if_neg hactive, Option.none_or]
  · have hslot : (⟨g, m⟩ : Slot) ≠ d.slot := fun h => hg (congrArg Slot.guid h)
    rw [if_neg (fun h => hg h.1), if_neg (fun h => hslot h.1), if_neg hg, Option.none_or]

/-- Purging a driver files a variant for each car with laps, and leaves the other files. -/
theorem get?_files_purge {g : Guid} {d : Driver} (hd : b.connected.get? g = some d)
    (hg : d.guid = g) (m : String) : (b.purge g).disconnected.get? ⟨g, m⟩ =
      if m ∈ d.lappedModels then d.variant? m else b.disconnected.get? ⟨g, m⟩ := by
  rw [purge_of_some hd, get?_fileAll_variants, Driver.variantAt?]
  show Option.or _ (b.disconnected.get? ⟨g, m⟩) = _
  by_cases hm : m ∈ d.lappedModels
  · obtain ⟨s, hs, -⟩ := Driver.mem_lappedModels.1 hm
    obtain ⟨q, hq⟩ := Driver.exists_variant? hs
    rw [if_pos ⟨hg.symm, hm⟩, if_pos hm, hq, Option.some_or]
  · rw [if_neg (fun h => hm h.2), if_neg hm, Option.none_or]

/-- **SYNCING ONE DRIVER**, under a slot of that driver. -/
theorem get?_sync_own (hd : b.connected.get? k.guid = some d) (hg : d.guid = k.guid) :
    (b.sync k.guid).disconnected.get? k =
      if k.model = d.model then none else (d.variant? k.model).or (b.disconnected.get? k) := by
  obtain ⟨g, m⟩ := k
  replace hg : d.guid = g := hg
  subst hg
  rw [get?_sync hd, Driver.variantAt?]
  by_cases hm : m = d.model
  · subst hm
    have hidle : d.model ∉ d.idleModels := fun h => (Driver.mem_idleModels.1 h).2 rfl
    rw [if_neg (fun h => hidle h.2), if_pos rfl, Option.none_or]
    exact if_pos rfl
  · have hslot : (⟨d.guid, m⟩ : Slot) ≠ d.slot := fun h => hm (congrArg Slot.model h)
    rw [if_neg hm, if_neg hslot]
    by_cases hkey : m ∈ d.sheets.keys
    · rw [if_pos ⟨rfl, Driver.mem_idleModels.2 ⟨hkey, hm⟩⟩]
    · rw [if_neg (fun h => hkey (Driver.mem_idleModels.1 h.2).1),
        Driver.variant?_eq_none_iff.2 hkey]

/-! ## Many drivers -/

/-- Filing drivers with different GUIDs leaves under a slot what filing the one of them leaves whose
slot it is. -/
theorem get?_foldl_file (b : Board) {ds : List Driver} (hds : (ds.map Driver.guid).Nodup)
    (k : Slot) : (ds.foldl file b).disconnected.get? k =
      ((Entries.value? k.guid (ds.map (fun d => (d.guid, d)))).bind (·.inCar? k.model)).or
        (b.disconnected.get? k) := by
  induction ds generalizing b with
  | nil => rfl
  | cons d ds ih =>
      rw [List.map_cons, List.nodup_cons] at hds
      rw [List.foldl_cons, ih _ hds.2, get?_file_eq, List.map_cons, Entries.value?_cons]
      by_cases hg : k.guid = d.guid
      · -- nobody later has the slot
        have hnone : Entries.value? k.guid (ds.map (fun d => (d.guid, d))) = none := by
          rw [Entries.value?_eq_none_iff, List.map_map, hg]
          exact hds.1
        rw [hnone, if_pos hg, if_pos hg.symm]
        rfl
      · rw [if_neg hg, if_neg (Ne.symm hg)]

/-- Syncing different drivers leaves under a slot what syncing the one of them leaves whose slot it
is. -/
theorem get?_foldl_sync (hown : ∀ g d, b.connected.get? g = some d → d.guid = g) {gs : List Guid}
    (hgs : gs.Nodup) (k : Slot) : (gs.foldl sync b).disconnected.get? k =
      if k.guid ∈ gs then (b.sync k.guid).disconnected.get? k else b.disconnected.get? k := by
  induction gs generalizing b with
  | nil => rfl
  | cons a gs ih =>
      obtain ⟨ha, hgs⟩ := List.nodup_cons.1 hgs
      have hown' : ∀ g d, (b.sync a).connected.get? g = some d → d.guid = g := by
        intro g d hd
        rw [connected_sync] at hd
        exact hown g d hd
      rw [List.foldl_cons, ih hown' hgs]
      by_cases hk : k.guid = a
      · subst hk
        rw [if_neg ha, if_pos List.mem_cons_self]
      · -- the first one syncs other slots
        have hfirst : (b.sync a).disconnected.get? k = b.disconnected.get? k :=
          get?_sync_of_ne (hown a) hk
        have hmem : k.guid ∈ a :: gs ↔ k.guid ∈ gs := by simp [hk]
        simp only [hmem, hfirst]
        congr 1
        cases hd : b.connected.get? k.guid with
        | none =>
            have hd' : (b.sync a).connected.get? k.guid = none := by
              rw [connected_sync]
              exact hd
            rw [sync_of_none hd, sync_of_none hd', hfirst]
        | some d =>
            have hd' : (b.sync a).connected.get? k.guid = some d := by
              rw [connected_sync]
              exact hd
            rw [get?_sync_own hd (hown _ d hd), get?_sync_own hd' (hown _ d hd), hfirst]

end Board

/-! ## The groups of a snapshot -/

namespace Roster

theorem mem_keys_table (g : Roster) (a : Guid) :
    a ∈ (Table.ofList g.drivers.entries).keys ↔ a ∈ g.drivers.keys := by
  rw [Table.mem_keys_iff, Keyed.mem_keys_iff]
  simp only [Table.get?_ofList g.drivers.distinct a]
  rfl

/-- The GUIDs of a group in order of rank: those ranked by the server, each where it stands first,
and the others behind them. -/
theorem map_guid_ranked (g : Roster) : g.ranked.map Driver.guid =
    (g.order.filter (fun a => a ∈ g.drivers.keys)).eraseDups ++
      (Table.ofList g.drivers.entries).keys.filter (fun a => a ∉ g.order) := by
  have hheld : ∀ a, a ∈ (Table.ofList g.drivers.entries).toKeyed.keys ↔ a ∈ g.drivers.keys :=
    g.mem_keys_table
  have hkeys : g.ranked.map Driver.guid =
      ((Table.ofList g.drivers.entries).toKeyed.arrange g.order).keys := by
    rw [ranked, List.map_map]
    rfl
  rw [hkeys, Keyed.keys_arrange_eq, rearrange]
  simp only [hheld]
  rfl

end Roster

namespace Board

/-- The GUIDs of the connected drivers are those of the group, in order of rank. -/
theorem keys_connected_ofSnapshot (s : Snapshot) :
    (ofSnapshot s).connected.keys = (s.connected.getD {}).ranked.map Driver.guid := by
  have hranked : s.connected.elim [] Roster.ranked = (s.connected.getD {}).ranked := by
    cases s.connected <;> rfl
  have hnodup := (s.connected.getD {}).nodup_guids_ranked
  rw [connected_ofSnapshot, hranked, Keyed.keys, Keyed.entries_ofList, List.map_map]
  · rfl
  · rw [List.map_map]
    exact hnodup

/-- The files of a snapshot come of filing who left and then syncing who is connected, on a board
without files. -/
theorem exists_disconnected_ofSnapshot (s : Snapshot) : ∃ b : Board,
    b.connected = (ofSnapshot s).connected ∧ b.disconnected = .empty ∧
      (ofSnapshot s).disconnected = ((ofSnapshot s).connected.keys.foldl sync
        ((s.disconnected.getD {}).ranked.foldl file b)).disconnected := by
  have hranked : s.disconnected.elim [] Roster.ranked = (s.disconnected.getD {}).ranked := by
    cases s.disconnected <;> rfl
  rw [connected_ofSnapshot, ← hranked]
  exact ⟨_, rfl, rfl, rfl⟩

/-- **WHAT A SNAPSHOT FILES UNDER A SLOT**: nothing for the active car of a connected driver, for
another car of a connected driver the record in that car, and otherwise what is filed of a driver
who left. -/
theorem get?_disconnected_ofSnapshot (s : Snapshot) (k : Slot) :
    (ofSnapshot s).disconnected.get? k =
      if ((ofSnapshot s).connected.get? k.guid).map Driver.model = some k.model then none
      else (((ofSnapshot s).connected.get? k.guid).bind (·.variant? k.model)).or
        (((s.disconnected.getD {}).drivers.get? k.guid).bind
          (fun d => (d.withGuid k.guid).inCar? k.model)) := by
  have hown := (filed_ofSnapshot s).own
  obtain ⟨b, hconn, hempty, hfiles⟩ := exists_disconnected_ofSnapshot s
  -- once those who left have been filed, the slot shows the record that the snapshot lists
  have hleft : ((s.disconnected.getD {}).ranked.foldl file b).disconnected.get? k =
      ((s.disconnected.getD {}).drivers.get? k.guid).bind
        (fun d => (d.withGuid k.guid).inCar? k.model) := by
    rw [get?_foldl_file b (Roster.nodup_guids_ranked _), Roster.value?_ranked, hempty,
      Keyed.get?_empty, Option.or_none, Option.bind_map]
    rfl
  have hown' : ∀ g d, ((s.disconnected.getD {}).ranked.foldl file b).connected.get? g = some d →
      d.guid = g := by
    intro g d hd
    rw [connected_foldl_file, hconn] at hd
    exact hown g d hd
  rw [hfiles, get?_foldl_sync hown' (Keyed.nodup_keys _)]
  cases hd : (ofSnapshot s).connected.get? k.guid with
  | none =>
      rw [if_neg (Keyed.get?_eq_none_iff.1 hd), hleft]
      rfl
  | some d =>
      have hmem : k.guid ∈ (ofSnapshot s).connected.keys := Keyed.mem_keys_iff.2 ⟨d, hd⟩
      have hd' : ((s.disconnected.getD {}).ranked.foldl file b).connected.get? k.guid =
          some d := by
        rw [connected_foldl_file, hconn]
        exact hd
      have hactive : (some d).map Driver.model = some k.model ↔ k.model = d.model := by
        rw [Option.map_some, Option.some.injEq, eq_comm]
      rw [if_pos hmem, get?_sync_own hd' (hown _ d hd), hleft, Option.bind_some]
      simp only [hactive]

/-- **A SNAPSHOT IS FILED COMPLETELY AND ONCE**. The connected drivers are those of the connected
group, each with the group's record under its GUID, first those that the server ranks, each where it
is ranked first, and then the others by GUID. Filed are the drivers who left, in every car that they
have a sheet for and in their active one, and the connected drivers in every other car that they
have a sheet for; but no connected driver is filed in the active car, and what is filed of a
connected driver takes the place of what the driver left. -/
theorem filed_exactly_once (s : Snapshot) :
    let b := ofSnapshot s
    let here := s.connected.getD {}
    let left := s.disconnected.getD {}
    (∀ g, b.connected.get? g = (here.drivers.get? g).map (·.withGuid g)) ∧
    (∃ rest, b.connected.keys = (here.order.filter (· ∈ here.drivers.keys)).eraseDups ++ rest ∧
      rest.Pairwise (fun a b => compare a b = .lt) ∧
      ∀ g, g ∈ rest ↔ g ∈ here.drivers.keys ∧ g ∉ here.order) ∧
    (∀ g m, ⟨g, m⟩ ∈ b.disconnected.keys ↔
      ((∃ d, left.drivers.get? g = some d ∧ (m ∈ d.sheets.keys ∨ m = d.model)) ∨
        ∃ d, here.drivers.get? g = some d ∧ m ∈ d.sheets.keys ∧ m ≠ d.model) ∧
      ∀ d, here.drivers.get? g = some d → m ≠ d.model) ∧
    ∀ g m, ⟨g, m⟩ ∈ b.disconnected.keys → b.disconnected.get? ⟨g, m⟩ =
      ((b.connected.get? g).bind (·.variant? m)).or
        ((left.drivers.get? g).bind (fun d => (d.withGuid g).inCar? m)) := by
  intro b here left
  have hconn : ∀ g, b.connected.get? g = (here.drivers.get? g).map (·.withGuid g) := by
    intro g
    rw [get?_connected_ofSnapshot]
    show _ = ((s.connected.getD {}).drivers.get? g).map _
    cases s.connected <;> rfl
  -- who left is filed in every car with a sheet and in the active one
  have hleft : ∀ g m, ((left.drivers.get? g).bind (fun d => (d.withGuid g).inCar? m)).isSome = true ↔
      ∃ d, left.drivers.get? g = some d ∧ (m ∈ d.sheets.keys ∨ m = d.model) := by
    intro g m
    cases left.drivers.get? g with
    | none => simp
    | some d =>
        rw [Option.bind_some, Driver.isSome_inCar?_iff]
        simp [Driver.withGuid, Driver.model]
  refine ⟨hconn, ?_, ?_, ?_⟩
  · refine ⟨_, (keys_connected_ofSnapshot s).trans here.map_guid_ranked, ?_, ?_⟩
    · exact (Table.ofList here.drivers.entries).ascending.filter _
    · intro g
      rw [List.mem_filter, here.mem_keys_table, decide_eq_true_iff]
  · intro g m
    rw [Keyed.mem_keys_iff, ← Option.isSome_iff_exists, get?_disconnected_ofSnapshot, hconn,
      ← hleft]
    cases here.drivers.get? g with
    | none => simp [left]
    | some d =>
        have hactive : ((some d).map (·.withGuid g)).map Driver.model = some m ↔ m = d.model := by
          rw [Option.map_some, Option.map_some, Option.some.injEq, eq_comm]
          rfl
        have hsheets : ((d.withGuid g).variant? m).isSome = true ↔ m ∈ d.sheets.keys :=
          Driver.isSome_variant?_iff
        simp only [hactive]
        by_cases hm : m = d.model
        · simp [hm]
        · simp [hm, hsheets, Option.isSome_or, or_comm, left]
  · intro g m hfiled
    obtain ⟨r, hr⟩ := Keyed.mem_keys_iff.1 hfiled
    rw [get?_disconnected_ofSnapshot] at hr ⊢
    split
    · next hactive =>
      rw [if_pos hactive] at hr
      cases hr
    · rfl

/-- One driver is in both groups, with another car in each, and one who left has no sheet. The
server ranks a stranger first and the connected driver twice; another one it does not rank. -/
theorem filed_exactly_once_of_both_groups :
    let sheets := Table.ofList [("m3", ({ laps := 2 } : LapSheet)), ("z4", { laps := 7 })]
    let here : Roster :=
      { drivers := .ofList
          [(⟨"c"⟩, { car := { model := "x1" } }), (⟨"b"⟩, { car := { model := "m3" } }),
           (⟨"a"⟩, { car := { model := "m3" }, sheets })]
        order := [⟨"z"⟩, ⟨"c"⟩, ⟨"c"⟩] }
    let left : Roster :=
      { drivers := .ofList
          [(⟨"a"⟩, { car := { model := "z4" }, sheets := Table.ofList [("m3", { laps := 1 })] }),
           (⟨"d"⟩, { car := { model := "q5" } })] }
    let b := ofSnapshot { connected := some here, disconnected := some left }
    b.connected.keys = [⟨"c"⟩, ⟨"a"⟩, ⟨"b"⟩] ∧
      b.disconnected.keys = [⟨⟨"a"⟩, "z4"⟩, ⟨⟨"d"⟩, "q5"⟩] ∧
      b.disconnected.get? ⟨⟨"a"⟩, "z4"⟩ = (b.connected.get? ⟨"a"⟩).bind (·.variant? "z4") := by
  intro sheets here left b
  have hconnected : b.connected.keys = [⟨"c"⟩, ⟨"a"⟩, ⟨"b"⟩] := by decide +kernel
  have hfiled : b.disconnected.keys = [⟨⟨"a"⟩, "z4"⟩, ⟨⟨"d"⟩, "q5"⟩] := by decide +kernel
  have hkey : (⟨⟨"a"⟩, "z4"⟩ : Slot) ∈ b.disconnected.keys := by
    rw [hfiled]
    exact List.mem_cons_self
  have hrecord := (filed_exactly_once { connected := some here, disconnected := some left }).2.2.2
    ⟨"a"⟩ "z4" hkey
  have hdriven : ((b.connected.get? ⟨"a"⟩).bind (·.variant? "z4")).isSome = true := by
    decide +kernel
  obtain ⟨r, hr⟩ := Option.isSome_iff_exists.1 hdriven
  refine ⟨hconnected, hfiled, hrecord.trans ?_⟩
  show ((b.connected.get? ⟨"a"⟩).bind (·.variant? "z4")).or _ = _
  rw [hr, Option.some_or]

end Board

end Pitwall
