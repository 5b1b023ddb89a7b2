import Pitwall.Engine.Connections
import Pitwall.Proofs.Data.Lookup

/-!
# Filing — which records a board holds, and under which keys

A driver's cars are spread over two maps: the car that is driven now stands with the connected
drivers, the others are filed with those who left. **`Board.Filed`** says that the two maps fit
together: every record stands under its own key, the active car of a connected driver is not
filed, and every other car of the connected record is, with the same lap sheet.

What `fileAll`, `sync`, `file` and `purge` do to the files is said once, by the lookup
**`Board.get?_fileAll_variants`**; that the maps fit together after each of them follows.
-/

namespace Pitwall

namespace Driver

/-- A variant is the same record in another car. -/
theorem of_variant? {d r : Driver} {m : String} (h : d.variant? m = some r) :
    r.slot = ⟨d.guid, m⟩ ∧ r.sheets = d.sheets := by
  obtain ⟨s, -, rfl⟩ := Option.map_eq_some_iff.1 h
  exact ⟨rfl, rfl⟩

/-- There is a variant for each car that has a sheet. -/
theorem exists_variant? {d : Driver} {m : String} {s : LapSheet} (h : d.sheets.get? m = some s) :
    ∃ r, d.variant? m = some r :=
  ⟨_, Option.map_eq_some_iff.2 ⟨s, h, rfl⟩⟩

theorem guid_of_mem_variants {d r : Driver} {ms : List String} (h : r ∈ d.variants ms) :
    r.guid = d.guid := by
  obtain ⟨m, -, hm⟩ := List.mem_filterMap.1 h
  exact congrArg Slot.guid (of_variant? hm).1

/-- The record that filing the variants of a driver leaves under a slot. -/
def variantAt? (d : Driver) (models : List String) (k : Slot) : Option Driver :=
  if k.guid = d.guid ∧ k.model ∈ models then d.variant? k.model else none

/-- The cars with sheets that are not driven now. -/
def idleModels (d : Driver) : List String := d.sheets.keys.filter (fun m => m ≠ d.model)

theorem mem_idleModels {d : Driver} {m : String} :
    m ∈ d.idleModels ↔ m ∈ d.sheets.keys ∧ m ≠ d.model := by
  simp [idleModels, List.mem_filter]

/-- The cars in which the driver has laps. -/
def lappedModels (d : Driver) : List String := (d.sheets.filter (fun _ s => 0 < s.laps)).keys

theorem mem_lappedModels {d : Driver} {m : String} :
    m ∈ d.lappedModels ↔ ∃ s, d.sheets.get? m = some s ∧ 0 < s.laps := by
  rw [lappedModels, Table.mem_keys_iff]
  simp only [Table.get?_filter, Option.filter_eq_some_iff, decide_eq_true_eq]

/-- The sheets of a record after one has been added for a car. -/
theorem get?_addSheet (d : Driver) (car : CarInfo) (m : String) :
    (d.addSheet car).sheets.get? m =
      if m = car.model then some ((d.sheets.get? m).getD (.ofCar car)) else d.sheets.get? m := by
  rw [addSheet]
  cases hs : d.sheets.get? car.model with
  | some s =>
      show d.sheets.get? m = _
      by_cases hm : m = car.model
      · rw [if_pos hm, hm, hs, Option.getD_some]
      · rw [if_neg hm]
  | none =>
      show (d.sheets.insert car.model (.ofCar car)).get? m = _
      rw [Table.get?_insert]
      by_cases hm : car.model = m
      · rw [if_pos hm, if_pos hm.symm, ← hm, hs, Option.getD_none]
      · rw [if_neg hm, if_neg (Ne.symm hm)]

end Driver

namespace Board

/-! ## What filing does to the files -/

@[simp] theorem fileAll_nil (b : Board) : b.fileAll [] = b := rfl

theorem fileAll_cons (b : Board) (r : Driver) (rs : List Driver) :
    b.fileAll (r :: rs) =
      fileAll { b with disconnected := b.disconnected.insert r.slot r } rs := rfl

theorem fileAll_append (b : Board) (rs qs : List Driver) :
    b.fileAll (rs ++ qs) = (b.fileAll rs).fileAll qs := by
  simp only [fileAll, List.foldl_append]

/-- Filing variants of a driver leaves each under the slot of its car and all other files as
they were. -/
theorem get?_fileAll_variants (b : Board) (d : Driver) (models : List String) (k : Slot) :
    (b.fileAll (d.variants models)).disconnected.get? k =
      (d.variantAt? models k).or (b.disconnected.get? k) := by
  induction models generalizing b with
  | nil => simp [Driver.variants, Driver.variantAt?]
  | cons m models ih =>
      -- the first model is filed first, so what is filed after it counts before it
      have hcons : d.variantAt? (m :: models) k =
          (d.variantAt? models k).or (if k = ⟨d.guid, m⟩ then d.variant? m else none) := by
        obtain ⟨g, n⟩ := k
        simp only [Driver.variantAt?, List.mem_cons, Slot.mk.injEq]
        by_cases hg : g = d.guid
        · by_cases hn : n = m
          · by_cases hm : m ∈ models <;> simp [hg, hn, hm]
          · simp [hg, hn]
        · simp [hg]
      rw [hcons, Option.or_assoc]
      cases hv : d.variant? m with
      | none =>
          have hrest : d.variants (m :: models) = d.variants models := List.filterMap_cons_none hv
          rw [hrest, ih, ite_self, Option.none_or]
      | some r =>
          have hrest : d.variants (m :: models) = r :: d.variants models :=
            List.filterMap_cons_some hv
          rw [hrest, fileAll_cons, ih, Keyed.get?_insert, (Driver.of_variant? hv).1]
          by_cases hk : k = ⟨d.guid, m⟩
          · rw [if_pos hk, if_pos hk, Option.some_or]
          · rw [if_neg hk, if_neg hk, Option.none_or]

/-- Filing a driver leaves each car of the record under its slot, and the record itself where the
active car has no sheet. -/
theorem get?_file (b : Board) (d : Driver) (k : Slot) :
    (b.file d).disconnected.get? k = (d.variantAt? d.sheets.keys k).or
      (if k = d.slot ∧ d.model ∉ d.sheets.keys then some d else b.disconnected.get? k) := by
  rw [file, fileAll_append, get?_fileAll_variants]
  congr 1
  by_cases hm : d.model ∈ d.sheets.keys
  · have hc : d.sheets.contains d.model = true := decide_eq_true hm
    rw [if_pos hc, if_neg (fun hk => hk.2 hm)]
    rfl
  · have hc : ¬ d.sheets.contains d.model = true := fun hc => hm (of_decide_eq_true hc)
    rw [if_neg hc, fileAll_cons, fileAll_nil, Keyed.get?_insert]
    by_cases hk : k = d.slot
    · rw [if_pos hk, if_pos ⟨hk, hm⟩]
    · rw [if_neg hk, if_neg (fun hc => hk hc.1)]

/-- Filing records of one driver leaves the files of others as they were. -/
theorem get?_fileAll_of_ne {b : Board} {g : Guid} {rs : List Driver} (hrs : ∀ r ∈ rs, r.guid = g)
    {k : Slot} (hk : k.guid ≠ g) :
    (b.fileAll rs).disconnected.get? k = b.disconnected.get? k := by
  induction rs generalizing b with
  | nil => rfl
  | cons r rs ih =>
      have hr : k ≠ r.slot := by
        intro h
        exact hk (h ▸ hrs r List.mem_cons_self)
      rw [fileAll_cons, ih (fun q hq => hrs q (List.mem_cons_of_mem _ hq)), Keyed.get?_insert,
        if_neg hr]

/-! ## Records under their own slots -/

/-- Every filed record stands under its own slot. -/
def SlotsOwn (b : Board) : Prop := ∀ k r, b.disconnected.get? k = some r → r.slot = k

theorem SlotsOwn.insert {b : Board} (h : b.SlotsOwn) (r : Driver) :
    SlotsOwn { b with disconnected := b.disconnected.insert r.slot r } := by
  intro k q hq
  rw [Keyed.get?_insert] at hq
  split at hq
  · next hk => rw [← Option.some.inj hq, hk]
  · exact h k q hq

theorem SlotsOwn.fileAll {b : Board} (h : b.SlotsOwn) (rs : List Driver) :
    (b.fileAll rs).SlotsOwn := by
  induction rs generalizing b with
  | nil => exact h
  | cons r rs ih =>
      rw [fileAll_cons]
      exact ih (h.insert r)

theorem SlotsOwn.erase {b : Board} (h : b.SlotsOwn) (k : Slot) :
    SlotsOwn { b with disconnected := b.disconnected.erase k } := by
  intro j r hr
  rw [Keyed.get?_erase] at hr
  split at hr
  · cases hr
  · exact h j r hr

/-! ## Keeping the files in line -/

/-- The files of a driver are in line with a record: the active car is not filed, and the other
cars are filed with the sheets of the record. -/
structure InLine (b : Board) (g : Guid) (d : Driver) : Prop where
  /-- The active car is not filed. -/
  active : b.disconnected.get? ⟨g, d.model⟩ = none
  /-- Every other car is filed with its sheet. -/
  idle : ∀ m s, m ≠ d.model → d.sheets.get? m = some s →
    ∃ r, b.disconnected.get? ⟨g, m⟩ = some r ∧ r.sheets.get? m = some s

/-- Only the files of the driver matter. -/
theorem InLine.congr {b c : Board} {g : Guid} {d : Driver} (h : b.InLine g d)
    (hsame : ∀ k : Slot, k.guid = g → c.disconnected.get? k = b.disconnected.get? k) :
    c.InLine g d where
  active := by rw [hsame _ rfl]; exact h.active
  idle := by
    intro m s hm hs
    rw [hsame _ rfl]
    exact h.idle m s hm hs

theorem sync_of_none {b : Board} {g : Guid} (h : b.connected.get? g = none) : b.sync g = b := by
  rw [sync, h]

theorem sync_of_some {b : Board} {g : Guid} {d : Driver} (h : b.connected.get? g = some d) :
    b.sync g = fileAll { b with disconnected := b.disconnected.erase d.slot }
      (d.variants d.idleModels) := by
  rw [sync, h]
  rfl

/-- Syncing changes the files only. -/
theorem sync_eq (b : Board) (g : Guid) :
    b.sync g = { b with disconnected := (b.sync g).disconnected } := by
  cases h : b.connected.get? g with
  | none => rw [sync_of_none h]
  | some d =>
      rw [sync_of_some h]
      rfl

@[simp] theorem connected_sync (b : Board) (g : Guid) : (b.sync g).connected = b.connected := by
  rw [sync_eq]

/-- Syncing takes the active car off the files and files the others anew. -/
theorem get?_sync {b : Board} {g : Guid} {d : Driver} (h : b.connected.get? g = some d)
    (k : Slot) : (b.sync g).disconnected.get? k =
      (d.variantAt? d.idleModels k).or (if k = d.slot then none else b.disconnected.get? k) := by
  rw [sync_of_some h, get?_fileAll_variants]
  show _ = (d.variantAt? d.idleModels k).or _
  rw [← Keyed.get?_erase]

/-- **SYNCING WORKS**: afterwards the files are in line with the connected record. -/
theorem inLine_sync {b : Board} {g : Guid} {d : Driver} (h : b.connected.get? g = some d)
    (hg : d.guid = g) : (b.sync g).InLine g d where
  active := by
    have hidle : d.model ∉ d.idleModels := fun hm => (Driver.mem_idleModels.1 hm).2 rfl
    rw [get?_sync h, Driver.variantAt?, if_neg (fun hk => hidle hk.2)]
    subst hg
    exact if_pos rfl
  idle := by
    intro m s hm hs
    have hidle : m ∈ d.idleModels :=
      Driver.mem_idleModels.2 ⟨Table.mem_keys_iff.2 ⟨s, hs⟩, hm⟩
    obtain ⟨r, hr⟩ := Driver.exists_variant? hs
    refine ⟨r, ?_, ?_⟩
    · rw [get?_sync h, Driver.variantAt?, if_pos ⟨hg.symm, hidle⟩, hr]
      rfl
    · rw [(Driver.of_variant? hr).2]
      exact hs

/-- Syncing one driver leaves the files of the others as they were. -/
theorem get?_sync_of_ne {b : Board} {g : Guid}
    (hown : ∀ d, b.connected.get? g = some d → d.guid = g) {k : Slot} (hk : k.guid ≠ g) :
    (b.sync g).disconnected.get? k = b.disconnected.get? k := by
  cases h : b.connected.get? g with
  | none => rw [sync_of_none h]
  | some d =>
      have hd : d.guid = g := hown d h
      have hslot : k ≠ d.slot := fun hs => hk (by rw [hs]; exact hd)
      rw [get?_sync h, Driver.variantAt?, if_neg (fun hc => hk (hc.1.trans hd)), Option.none_or,
        if_neg hslot]

theorem SlotsOwn.sync {b : Board} (h : b.SlotsOwn) (g : Guid) : (b.sync g).SlotsOwn := by
  cases hd : b.connected.get? g with
  | none => rw [sync_of_none hd]; exact h
  | some d =>
      rw [sync_of_some hd]
      exact (h.erase d.slot).fileAll _

/-! ## Both maps together -/

/-- The connected drivers and the files fit together. -/
structure Filed (b : Board) : Prop where
  /-- A connected record stands under its own GUID. -/
  own : ∀ g d, b.connected.get? g = some d → d.guid = g
  /-- The files are in line with every connected record. -/
  inLine : ∀ g d, b.connected.get? g = some d → b.InLine g d
  /-- A filed record stands under its own slot. -/
  slots : b.SlotsOwn

/-- The fit is a matter of lookups alone. -/
theorem Filed.congr {b c : Board} (h : b.Filed)
    (hconn : ∀ g, c.connected.get? g = b.connected.get? g)
    (hfiles : ∀ k, c.disconnected.get? k = b.disconnected.get? k) : c.Filed := by
  refine ⟨?_, ?_, ?_⟩
  · intro g d hd
    exact h.own g d (hconn g ▸ hd)
  · intro g d hd
    exact (h.inLine g d (hconn g ▸ hd)).congr (fun k _ => hfiles k)
  · intro k r hr
    exact h.slots k r (hfiles k ▸ hr)

/-- The files of a driver who is taken off may change; nothing else may. -/
theorem Filed.leave {b c : Board} {g : Guid} (h : b.Filed)
    (hconn : c.connected = b.connected.erase g)
    (hfiles : ∀ k : Slot, k.guid ≠ g → c.disconnected.get? k = b.disconnected.get? k)
    (hslots : c.SlotsOwn) : c.Filed := by
  -- who is still connected is not the one who leaves
  have hback : ∀ a d, c.connected.get? a = some d → a ≠ g ∧ b.connected.get? a = some d := by
    intro a d ha
    rw [hconn, Keyed.get?_erase] at ha
    split at ha
    · cases ha
    · next hne => exact ⟨hne, ha⟩
  refine ⟨?_, ?_, hslots⟩
  · intro a d ha
    exact h.own a d (hback a d ha).2
  · intro a d ha
    obtain ⟨hne, ha⟩ := hback a d ha
    refine (h.inLine a d ha).congr ?_
    intro k hk
    exact hfiles k (hk ▸ hne)

theorem purge_of_none {b : Board} {g : Guid} (h : b.connected.get? g = none) :
    b.purge g = b.remove g := by
  rw [purge, h]
  rfl

theorem purge_of_some {b : Board} {g : Guid} {d : Driver} (h : b.connected.get? g = some d) :
    b.purge g = (b.remove g).fileAll (d.variants d.lappedModels) := by
  rw [purge, h]
  rfl

theorem Filed.purge {b : Board} (h : b.Filed) (g : Guid) : (b.purge g).Filed := by
  cases hd : b.connected.get? g with
  | none =>
      rw [purge_of_none hd]
      exact h.leave rfl (fun _ _ => rfl) h.slots
  | some d =>
      rw [purge_of_some hd]
      refine h.leave (g := g) rfl ?_ (SlotsOwn.fileAll (b := b.remove g) h.slots _)
      intro k hk
      refine get?_fileAll_of_ne (b := b.remove g) ?_ hk
      intro r hr
      rw [Driver.guid_of_mem_variants hr, h.own g d hd]

/-- The records that filing a driver writes. -/
def filing (d : Driver) : List Driver :=
  (if d.sheets.contains d.model then [] else [d]) ++ d.variants d.sheets.keys

theorem guid_of_mem_filing {d r : Driver} (h : r ∈ filing d) : r.guid = d.guid := by
  rcases List.mem_append.1 h with h | h
  · split at h
    · exact absurd h List.not_mem_nil
    · rw [List.mem_singleton.1 h]
  · exact Driver.guid_of_mem_variants h

theorem Filed.removeAndFile {b : Board} (h : b.Filed) {g : Guid} {d : Driver}
    (hd : b.connected.get? g = some d) : ((b.remove g).file d).Filed := by
  refine h.leave (g := g) rfl ?_ ?_
  · intro k hk
    have hmem : ∀ r ∈ filing d, r.guid = g := by
      intro r hr
      rw [guid_of_mem_filing hr, h.own g d hd]
    exact get?_fileAll_of_ne (b := b.remove g) hmem hk
  · exact SlotsOwn.fileAll (b := b.remove g) h.slots _

/-- A driver who is put among the connected ones and then synced fits in. -/
theorem Filed.enter {b c : Board} (h : b.Filed) {d : Driver}
    (hconn : c.connected = b.connected.insert d.guid d)
    (hfiles : c.disconnected = b.disconnected) : (c.sync d.guid).Filed := by
  have hnew : c.connected.get? d.guid = some d := by
    rw [hconn, Keyed.get?_insert, if_pos rfl]
  -- a connected record is the new one, or an old one of somebody else
  have hback : ∀ a e, c.connected.get? a = some e →
      (a = d.guid ∧ e = d) ∨ (a ≠ d.guid ∧ b.connected.get? a = some e) := by
    intro a e ha
    rw [hconn, Keyed.get?_insert] at ha
    split at ha
    · next hg => exact Or.inl ⟨hg, (Option.some.inj ha).symm⟩
    · next hg => exact Or.inr ⟨hg, ha⟩
  have hslots : c.SlotsOwn := by
    intro k r hr
    rw [hfiles] at hr
    exact h.slots k r hr
  refine ⟨?_, ?_, hslots.sync d.guid⟩
  · intro a e ha
    rw [connected_sync] at ha
    rcases hback a e ha with ⟨rfl, rfl⟩ | ⟨-, ha⟩
    · rfl
    · exact h.own a e ha
  · intro a e ha
    rw [connected_sync] at ha
    rcases hback a e ha with ⟨rfl, rfl⟩ | ⟨hne, ha⟩
    · exact inLine_sync hnew rfl
    · -- syncing the new driver does not reach the files of this one
      refine (h.inLine a e ha).congr ?_
      intro k hk
      rw [get?_sync_of_ne ?_ (hk ▸ hne), hfiles]
      intro r hr
      rw [← Option.some.inj (hnew.symm.trans hr)]

/-! ## Drivers who come -/

/-- The record of a driver who connects bears the announced car. -/
theorem car_arriving (b : Board) (car : CarInfo) (now : Instant) :
    (b.arriving car now).car = car := by
  rw [arriving]
  split <;> rfl

/-- The record that a driver has after connecting. -/
def joining (b : Board) (car : CarInfo) (now : Instant) : Driver :=
  (b.connected.get? car.guid).elim (b.arriving car now) (rejoining · car now)

theorem car_joining (b : Board) (car : CarInfo) (now : Instant) :
    (b.joining car now).car = car := by
  rw [joining]
  cases b.connected.get? car.guid with
  | none => exact b.car_arriving car now
  | some d => rfl

theorem guid_joining (b : Board) (car : CarInfo) (now : Instant) :
    (b.joining car now).guid = car.guid :=
  congrArg CarInfo.guid (b.car_joining car now)

/-- A driver who connects has been entered with the record, but not yet synced. -/
def entering (b : Board) (car : CarInfo) (now : Instant) : Board :=
  { b with
    connected := b.connected.insert car.guid (b.joining car now)
    cars := b.cars.insert car.carId car.guid }

/-- Connecting enters the driver, syncs the files and sets a new marker. -/
theorem connect_eq (b : Board) (car : CarInfo) (now : Instant) :
    b.connect car now =
      { (b.entering car now).sync car.guid with
        markers := ((b.entering car now).sync car.guid).markers.insert car.guid (.ofCar car) } :=
  rfl

/-- Afterwards the driver is connected with that record, the others as before. -/
theorem get?_connected_connect (b : Board) (car : CarInfo) (now : Instant) (g : Guid) :
    (b.connect car now).connected.get? g =
      if g = car.guid then some (b.joining car now) else b.connected.get? g := by
  rw [connect_eq]
  show ((b.entering car now).sync car.guid).connected.get? g = _
  rw [connected_sync]
  exact Keyed.get?_insert _ _ _ _

/-- Afterwards the driver is bound to the place. -/
theorem cars_connect (b : Board) (car : CarInfo) (now : Instant) :
    (b.connect car now).cars = b.cars.insert car.carId car.guid := by
  show ((b.entering car now).sync car.guid).cars = _
  rw [sync_eq]
  rfl

/-- Afterwards the files are those that syncing leaves. -/
theorem get?_disconnected_connect (b : Board) (car : CarInfo) (now : Instant) (k : Slot) :
    (b.connect car now).disconnected.get? k =
      ((b.joining car now).variantAt? (b.joining car now).idleModels k).or
        (if k = (b.joining car now).slot then none else b.disconnected.get? k) := by
  have hentered : (b.entering car now).connected.get? car.guid = some (b.joining car now) := by
    show (b.connected.insert _ _).get? _ = _
    rw [Keyed.get?_insert, if_pos rfl]
  exact get?_sync hentered k

theorem Filed.connect {b : Board} (h : b.Filed) (car : CarInfo) (now : Instant) :
    (b.connect car now).Filed := by
  have hconn : (b.entering car now).connected =
      b.connected.insert (b.joining car now).guid (b.joining car now) := by
    rw [guid_joining]
    rfl
  have hentered := h.enter hconn rfl
  rw [guid_joining] at hentered
  exact hentered.congr (fun _ => rfl) (fun _ => rfl)

/-! ## Snapshots -/

/-- Filing changes the files only. -/
theorem foldl_file_eq (b : Board) (ds : List Driver) :
    ds.foldl file b = { b with disconnected := (ds.foldl file b).disconnected } := by
  induction ds generalizing b with
  | nil => rfl
  | cons d ds ih =>
      rw [List.foldl_cons, ih]
      rfl

theorem foldl_sync_eq (b : Board) (gs : List Guid) :
    gs.foldl sync b = { b with disconnected := (gs.foldl sync b).disconnected } := by
  induction gs generalizing b with
  | nil => rfl
  | cons g gs ih => rw [List.foldl_cons, ih, sync_eq]

theorem connected_foldl_file (b : Board) (ds : List Driver) :
    (ds.foldl file b).connected = b.connected := by
  rw [foldl_file_eq]

theorem connected_foldl_sync (b : Board) (gs : List Guid) :
    (gs.foldl sync b).connected = b.connected := by
  rw [foldl_sync_eq]

theorem SlotsOwn.foldl_file {b : Board} (h : b.SlotsOwn) (ds : List Driver) :
    (ds.foldl Board.file b).SlotsOwn := by
  induction ds generalizing b with
  | nil => exact h
  | cons d ds ih => exact ih (h.fileAll _)

theorem SlotsOwn.foldl_sync {b : Board} (h : b.SlotsOwn) (gs : List Guid) :
    (gs.foldl Board.sync b).SlotsOwn := by
  induction gs generalizing b with
  | nil => exact h
  | cons g gs ih => exact ih (h.sync g)

/-- Syncing drivers one after the other gets the files of each into line; syncing the later ones
does not disturb the earlier ones. -/
theorem inLine_foldl_sync {b : Board} (hown : ∀ g d, b.connected.get? g = some d → d.guid = g)
    (gs : List Guid) :
    ∀ g d, b.connected.get? g = some d → (g ∈ gs ∨ b.InLine g d) →
      (gs.foldl sync b).InLine g d := by
  induction gs generalizing b with
  | nil => exact fun g d _ h => h.elim (fun h => nomatch h) id
  | cons a gs ih =>
      intro g d hd h
      rw [List.foldl_cons]
      refine ih (by simpa using hown) g d (by simpa using hd) ?_
      by_cases hg : g = a
      · exact Or.inr (hg ▸ inLine_sync hd (hown g d hd))
      · rcases h with h | h
        · exact Or.inl ((List.mem_cons.1 h).resolve_left hg)
        · -- in line already, and the files of another driver are synced
          refine Or.inr (h.congr ?_)
          intro k hk
          exact get?_sync_of_ne (hown a) (hk ▸ hg)

/-- Only files and markers have to be worked out of a snapshot, the rest it says. -/
theorem ofSnapshot_eq (s : Snapshot) : ofSnapshot s =
    { initialised := true
      session := s.session
      startedAt := s.startedAt
      updateMillis := s.updateMillis
      track := s.track
      map := s.map
      connected := Keyed.ofList ((s.connected.elim [] Roster.ranked).map (fun d => (d.guid, d)))
      disconnected := (ofSnapshot s).disconnected
      cars := .ofListing s.cars
      markers := (ofSnapshot s).markers } := by
  rw [ofSnapshot]
  dsimp only
  rw [foldl_sync_eq, foldl_file_eq]

theorem connected_ofSnapshot (s : Snapshot) : (ofSnapshot s).connected =
    Keyed.ofList ((s.connected.elim [] Roster.ranked).map (fun d => (d.guid, d))) := by
  rw [ofSnapshot_eq]

/-- **A SNAPSHOT IS FILED PROPERLY**, whatever it says of a driver in its two groups. -/
theorem filed_ofSnapshot (s : Snapshot) : (ofSnapshot s).Filed := by
  have hown : ∀ g d, (ofSnapshot s).connected.get? g = some d → d.guid = g := by
    intro g d hd
    rw [connected_ofSnapshot] at hd
    obtain ⟨c, -, hc⟩ := List.mem_map.1 (Keyed.mem_of_get?_ofList hd)
    cases hc
    rfl
  refine ⟨hown, ?_, ?_⟩
  · intro g d hd
    -- all connected drivers are synced at the end, so each of them is among those
    have hconn : (ofSnapshot s).connected = _ := connected_foldl_sync _ _
    refine InLine.congr (b := List.foldl sync _ _) ?_ (fun k _ => rfl)
    refine inLine_foldl_sync ?_ _ g d (by rw [hconn] at hd; exact hd) (Or.inl ?_)
    · intro a c hc
      exact hown a c (by rw [hconn]; exact hc)
    · rw [hconn, connected_foldl_file] at hd
      exact Keyed.mem_keys_iff.2 ⟨d, hd⟩
  · refine SlotsOwn.foldl_sync (SlotsOwn.foldl_file ?_ _) _
    exact fun k r hr => nomatch hr

end Board

end Pitwall
