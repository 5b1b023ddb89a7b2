import Pitwall.Proofs.Board.History
import Pitwall.Proofs.Engine.Filed

/-!
# What events do to the history of drivers

Between snapshots, events on the track only add to what is on record. Drivers who come or go
have one record put in the place of filed ones, and their history is kept exactly if that record
and the remaining files match the files that are given up: **`Engine.historyKept_apply_iff`**.

Files are not always matched. A driver who leaves without a usable stint has only the cars with
laps filed anew; the file of a car without laps stays as it was, with all the sheets it had when
it was filed. When the driver comes back in that car, the stale file is picked up and takes the
place of the others: **`Engine.history_of_stale_file`**.
-/

namespace Pitwall

namespace Board

/-- There is room for one more lap in the sheet that an event adds a lap to. -/
def HasRoomFor (b : Board) : Event → Prop
  | .lapCompleted l => ∀ g d, b.atCar? l.carId = some (g, d) → d.sheet.laps.toNat + 1 < UInt32.size
  | _ => True

/-! ## Driving -/

theorem matchedBy_of_continues {s t : LapSheet} {lap : Prop} {l : List LapSheet}
    (h : s.Continues t lap) (hroom : lap → s.laps.toNat + 1 < UInt32.size) (ht : t ∈ l) :
    s.MatchedBy l where
  laps := by
    refine Or.inr ⟨t, ht, ?_⟩
    rcases h.laps with heq | ⟨hlap, heq⟩
    · exact Nat.le_of_eq (congrArg UInt32.toNat heq.symm)
    · have hless := hroom hlap
      have hnat : t.laps.toNat = s.laps.toNat + 1 := by
        rw [heq, UInt32.toNat_add]
        exact Nat.mod_eq_of_lt hless
      omega
  best := by
    intro hv
    rcases h.best with heq | ⟨htv, hless⟩
    · have htv : t.hasValidLap := by
        rw [LapSheet.hasValidLap, heq]
        exact hv
      exact ⟨t, ht, htv, heq ▸ Int64.le_refl _⟩
    · exact ⟨t, ht, htv, Int64.le_of_lt (hless hv)⟩

/-- What happens on the track only adds to the history. -/
theorem Driven.historyKept {b c : Board} {lapper : Option Guid} (h : b.Driven c lapper)
    (hroom : ∀ g d s, lapper = some g → b.connected.get? g = some d → d.sheet? = some s →
      s.laps.toNat + 1 < UInt32.size) (g : Guid) (m : String) :
    HistoryKept (b.sheetsOf g m) (c.sheetsOf g m) := by
  rw [historyKept_iff]
  intro s hs
  obtain ⟨r, hr, hs⟩ := mem_sheetsOf.1 hs
  rcases mem_records.1 hr with hconn | ⟨n, hfile⟩
  · obtain ⟨r', hconn', hcont⟩ := h.present g r hconn
    have hmem : ∀ t, r'.sheets.get? m = some t → t ∈ c.sheetsOf g m := by
      intro t ht
      exact mem_sheetsOf.2 ⟨r', mem_records.2 (Or.inl hconn'), ht⟩
    by_cases hm : m = r.model
    · -- the active sheet may have got on by a lap
      subst hm
      obtain ⟨t, ht, hst⟩ := hcont.active s hs
      have ht' : r'.sheets.get? r.model = some t := by
        rw [← hcont.model]
        exact ht
      exact matchedBy_of_continues hst (fun hlap => hroom g r s hlap hconn hs) (hmem t ht')
    · exact LapSheet.matchedBy_of_mem (hmem s ((hcont.idle m hm).trans hs))
  · have hfile' : c.disconnected.get? ⟨g, n⟩ = some r := by
      rw [h.files]
      exact hfile
    exact LapSheet.matchedBy_of_mem
      (mem_sheetsOf.2 ⟨r, mem_records.2 (Or.inr ⟨n, hfile'⟩), hs⟩)

/-! ## Coming -/

/-- The record of a driver who connects has a sheet for the car. -/
theorem exists_sheet_joining (b : Board) (car : CarInfo) (now : Instant) :
    ∃ s, (b.joining car now).sheets.get? car.model = some s := by
  have hadd : ∀ d : Driver, ∃ s, (d.addSheet car).sheets.get? car.model = some s := by
    intro d
    exact ⟨_, (d.get?_addSheet car car.model).trans (if_pos rfl)⟩
  rw [joining]
  cases b.connected.get? car.guid with
  | some d => exact hadd d
  | none =>
      show ∃ s, (b.arriving car now).sheets.get? car.model = some s
      rw [arriving]
      split
      · refine ⟨.ofCar car, ?_⟩
        show (Table.insert _ _ _).get? _ = _
        rw [Table.get?_insert, if_pos rfl]
      · next d _ => exact hadd d

/-- A driver who connects again keeps all sheets. -/
theorem sheet_joining {b : Board} {car : CarInfo} {now : Instant} {d : Driver}
    (hd : b.connected.get? car.guid = some d) {m : String} {s : LapSheet}
    (hs : d.sheets.get? m = some s) : (b.joining car now).sheets.get? m = some s := by
  rw [joining, hd]
  show (d.addSheet car).sheets.get? m = some s
  rw [Driver.get?_addSheet, hs, Option.getD_some, ite_self]

theorem model_joining (b : Board) (car : CarInfo) (now : Instant) :
    (b.joining car now).model = car.model :=
  congrArg CarInfo.model (b.car_joining car now)

/-- What is filed of a driver who has connected is a variant of the record, or the old file of a
car without a sheet. -/
theorem filed_of_connect {b : Board} {car : CarInfo} {now : Instant} {n : String} {r : Driver}
    (h : (b.connect car now).disconnected.get? ⟨car.guid, n⟩ = some r) :
    r.sheets = (b.joining car now).sheets ∨
      (n ∉ (b.joining car now).sheets.keys ∧ b.disconnected.get? ⟨car.guid, n⟩ = some r) := by
  have hg : car.guid = (b.joining car now).guid := (b.guid_joining car now).symm
  rw [get?_disconnected_connect, Option.or_eq_some_iff] at h
  generalize b.joining car now = d at *
  rcases h with hvariant | ⟨hvariant, hold⟩
  · rw [Driver.variantAt?] at hvariant
    split at hvariant
    · exact Or.inl (Driver.of_variant? hvariant).2
    · cases hvariant
  · split at hold
    · cases hold
    · next hslot =>
      refine Or.inr ⟨?_, hold⟩
      intro hn
      -- the file would be one of an idle car, which is filed anew
      have hne : n ≠ d.model := fun h => hslot (by rw [h, hg]; rfl)
      obtain ⟨t, ht⟩ := Table.mem_keys_iff.1 hn
      obtain ⟨q, hq⟩ := Driver.exists_variant? ht
      have hidle : n ∈ d.idleModels := Driver.mem_idleModels.2 ⟨hn, hne⟩
      rw [Driver.variantAt?, if_pos ⟨hg, hidle⟩, hq] at hvariant
      cases hvariant

/-- Other files stay as they were: those of cars without a sheet, and those of other drivers. -/
theorem get?_disconnected_connect_of_not {b : Board} {car : CarInfo} {now : Instant} {k : Slot}
    (hk : k.guid = car.guid → k.model ∉ (b.joining car now).sheets.keys) :
    (b.connect car now).disconnected.get? k = b.disconnected.get? k := by
  obtain ⟨s, hs⟩ := b.exists_sheet_joining car now
  have hmodel : (b.joining car now).model ∈ (b.joining car now).sheets.keys := by
    rw [model_joining]
    exact Table.mem_keys_iff.2 ⟨s, hs⟩
  rw [← b.guid_joining car now] at hk
  have hvariant : ¬ (k.guid = (b.joining car now).guid ∧
      k.model ∈ (b.joining car now).idleModels) := by
    rintro ⟨hguid, hidle⟩
    exact hk hguid (Driver.mem_idleModels.1 hidle).1
  have hslot : k ≠ (b.joining car now).slot := by
    rintro rfl
    exact hk rfl hmodel
  rw [get?_disconnected_connect, Driver.variantAt?, if_neg hvariant, if_neg hslot, Option.none_or]

/-- The record of a driver who connects takes the files of all its cars. -/
theorem replaces_connect (b : Board) (car : CarInfo) (now : Instant) :
    b.Replaces (b.connect car now) (b.joining car now) (b.joining car now).sheets.keys := by
  have hg : (b.joining car now).guid = car.guid := b.guid_joining car now
  have hsome : ∀ m s, (b.joining car now).sheets.get? m = some s →
      (b.joining car now).sheets.keys ≠ [] :=
    fun m s hs => List.ne_nil_of_mem (Table.mem_keys_iff.2 ⟨s, hs⟩)
  have hconn : (b.connect car now).connected.get? car.guid = some (b.joining car now) := by
    rw [get?_connected_connect, if_pos rfl]
  refine ⟨?_, ?_, ?_, ?_, ?_, ?_⟩
  · intro _
    exact ⟨_, mem_records.2 (Or.inl (hg ▸ hconn)), rfl⟩
  · intro n r hn hr
    rw [get?_disconnected_connect_of_not (fun _ => hn)]
    exact hr
  · intro r hr
    rw [hg] at hr ⊢
    rcases mem_records.1 hr with hc | ⟨n, hc⟩
    · have heq : b.joining car now = r := Option.some.inj (hconn.symm.trans hc)
      exact Or.inl ⟨heq ▸ rfl, hsome⟩
    · rcases filed_of_connect hc with hsame | hold
      · exact Or.inl ⟨hsame, hsome⟩
      · exact Or.inr ⟨n, hold⟩
  · intro e he m s hs
    exact sheet_joining (hg ▸ he) hs
  · -- there is the sheet of the announced car at least
    intro hnil
    obtain ⟨s, hs⟩ := b.exists_sheet_joining car now
    exact absurd hnil (hsome _ s hs)
  · intro g hne r
    rw [hg] at hne
    have hfile : ∀ n, (b.connect car now).disconnected.get? ⟨g, n⟩ =
        b.disconnected.get? ⟨g, n⟩ :=
      fun n => get?_disconnected_connect_of_not (fun h => absurd h hne)
    simp only [mem_records, get?_connected_connect, if_neg hne, hfile]

/-! ## Going -/

/-- When a driver is taken off, other drivers keep their records. -/
theorem mem_records_leave {b c : Board} {g : Guid} (hconn : c.connected = b.connected.erase g)
    (hfiles : ∀ k : Slot, k.guid ≠ g → c.disconnected.get? k = b.disconnected.get? k)
    {a : Guid} (ha : a ≠ g) (r : Driver) : r ∈ c.records a ↔ r ∈ b.records a := by
  have hfile : ∀ n, c.disconnected.get? ⟨a, n⟩ = b.disconnected.get? ⟨a, n⟩ :=
    fun n => hfiles ⟨a, n⟩ ha
  have hconn' : c.connected.get? a = b.connected.get? a := by
    rw [hconn, Keyed.get?_erase, if_neg ha]
  simp only [mem_records, hconn', hfile]

/-- What is held of a driver who has been taken off is filed. -/
theorem mem_records_left {b c : Board} {g : Guid} (hconn : c.connected = b.connected.erase g)
    {r : Driver} : r ∈ c.records g ↔ ∃ n, c.disconnected.get? ⟨g, n⟩ = some r := by
  have hnone : c.connected.get? g = none := by
    rw [hconn, Keyed.get?_erase, if_pos rfl]
  rw [mem_records, hnone]
  simp

/-- A driver who is taken off has some cars filed; the record itself may be filed as well, where
all cars are. -/
theorem replaces_leave {b c : Board} (h : b.Filed) {d : Driver}
    (hd : b.connected.get? d.guid = some d) (hconn : c.connected = b.connected.erase d.guid)
    {models : List String} (hmodels : ∀ n ∈ models, n ∈ d.sheets.keys) {p : Prop}
    [Decidable p] (hall : p → models = d.sheets.keys)
    (hfile : ∀ k, c.disconnected.get? k = (d.variantAt? models k).or
      (if k = d.slot ∧ p then some d else b.disconnected.get? k)) :
    b.Replaces c d models := by
  have hvariant : ∀ n, n ∈ models → ∃ r, c.disconnected.get? ⟨d.guid, n⟩ = some r ∧
      r.sheets = d.sheets := by
    intro n hn
    obtain ⟨s, hs⟩ := Table.mem_keys_iff.1 (hmodels n hn)
    obtain ⟨r, hr⟩ := Driver.exists_variant? hs
    refine ⟨r, ?_, (Driver.of_variant? hr).2⟩
    rw [hfile, Driver.variantAt?, if_pos ⟨rfl, hn⟩, hr]
    rfl
  refine ⟨?_, ?_, ?_, ?_, fun _ => hd, ?_⟩
  · intro hne
    obtain ⟨n, hn⟩ := List.exists_mem_of_ne_nil _ hne
    obtain ⟨r, hr, hsame⟩ := hvariant n hn
    exact ⟨r, (mem_records_left hconn).2 ⟨n, hr⟩, hsame⟩
  · intro n r hn hr
    -- the active car of a connected driver is not filed, so no file gives way to the record
    have hslot : (⟨d.guid, n⟩ : Slot) ≠ d.slot := by
      intro hk
      have hnone : b.disconnected.get? d.slot = none := (h.inLine d.guid d hd).active
      rw [← hk, hr] at hnone
      cases hnone
    rw [hfile, Driver.variantAt?, if_neg (fun hk => hn hk.2), if_neg (fun hk => hslot hk.1)]
    exact hr
  · intro r hr
    obtain ⟨n, hc⟩ := (mem_records_left hconn).1 hr
    by_cases hn : n ∈ models
    · obtain ⟨q, hq, hsame⟩ := hvariant n hn
      have hqr : q = r := Option.some.inj (hq.symm.trans hc)
      exact Or.inl ⟨hqr ▸ hsame, fun _ _ _ => List.ne_nil_of_mem hn⟩
    · -- no variant, so the record itself or a file that was there before
      rw [hfile, Driver.variantAt?, if_neg (fun hk => hn hk.2), Option.none_or] at hc
      split at hc
      · next hself =>
        refine Or.inl ⟨by rw [Option.some.inj hc], ?_⟩
        intro m s hs
        rw [hall hself.2]
        exact List.ne_nil_of_mem (Table.mem_keys_iff.2 ⟨s, hs⟩)
      · exact Or.inr ⟨n, hn, hc⟩
  · intro e he m s hs
    rw [Option.some.inj (hd.symm.trans he)]
    exact hs
  · intro a ha r
    refine mem_records_leave hconn ?_ ha r
    intro k hk
    have hslot : k ≠ d.slot := fun hs => hk (congrArg Slot.guid hs)
    rw [hfile, Driver.variantAt?, if_neg (fun hc => hk hc.1), if_neg (fun hc => hslot hc.1),
      Option.none_or]

/-- A driver who leaves without a usable stint takes the files of the cars with laps. -/
theorem replaces_purge {b : Board} (h : b.Filed) {g : Guid} {d : Driver}
    (hd : b.connected.get? g = some d) : b.Replaces (b.purge g) d d.lappedModels := by
  obtain rfl : d.guid = g := h.own g d hd
  have hmodels : ∀ n ∈ d.lappedModels, n ∈ d.sheets.keys := by
    intro n hn
    obtain ⟨s, hs, -⟩ := Driver.mem_lappedModels.1 hn
    exact Table.mem_keys_iff.2 ⟨s, hs⟩
  refine replaces_leave h hd rfl hmodels (p := False) (fun hf => hf.elim) ?_
  intro k
  rw [purge_of_some hd, get?_fileAll_variants, if_neg (fun hk => hk.2)]
  rfl

/-- A driver who leaves after a usable stint takes the files of all cars. -/
theorem replaces_file {b : Board} (h : b.Filed) {g : Guid} {d : Driver}
    (hd : b.connected.get? g = some d) : b.Replaces ((b.remove g).file d) d d.sheets.keys := by
  obtain rfl : d.guid = g := h.own g d hd
  refine replaces_leave h hd rfl (fun n hn => hn) (p := d.model ∉ d.sheets.keys)
    (fun _ => rfl) ?_
  intro k
  exact get?_file (b.remove d.guid) d k

end Board

namespace Engine

/-- An event that writes no record in the place of others only drives. -/
theorem driven_of_writes?_eq_none {e : Engine} {ev : Event} {now : Instant}
    (hev : ∀ s, ev ≠ .snapshot s) (hw : e.board.writes? now ev = none) :
    e.board.Driven (e.apply ev now).1.board (e.board.lapper? ev) := by
  by_cases hdrive : ev.rearranges = false
  · exact driven_merge { e with lastAppliedAt := some now } now hdrive
  · cases ev with
    | snapshot s => exact absurd rfl (hev s)
    | newConnection car => cases hw
    | connectionClosed car =>
        have hnone : e.board.connected.get? car.guid = none := Option.map_eq_none_iff.1 hw
        have hsame : (e.apply (.connectionClosed car) now).1.board = e.board := by
          show (disconnect _ _).1.board = _
          rw [disconnect, hnone]
        rw [hsame]
        exact Board.Driven.refl _
    | _ => exact absurd rfl hdrive

/-- An event that writes a record puts it in the place of others. -/
theorem replaces_of_writes?_eq_some {e : Engine} (h : e.board.Filed) {ev : Event} {now : Instant}
    {d : Driver} {taken : List String} (hw : e.board.writes? now ev = some (d, taken)) :
    e.board.Replaces (e.apply ev now).1.board d taken := by
  cases ev with
  | newConnection car =>
      cases hw
      exact e.board.replaces_connect car now
  | connectionClosed car =>
      obtain ⟨c, hc, heq⟩ := Option.map_eq_some_iff.1 hw
      cases heq
      show e.board.Replaces (disconnect _ _).1.board _ _
      rw [disconnect, hc]
      by_cases hstint : (!d.isLoaded || d.totalLaps == 0) = true
      · simp only [if_pos hstint]
        exact Board.replaces_purge h hc
      · simp only [if_neg hstint]
        exact Board.replaces_file h hc
  | _ => cases hw

/-- **HISTORY BETWEEN SNAPSHOTS**: with room to count another lap, an event that is no snapshot
keeps the history of every driver in every car, except that a record which the event puts in the
place of filed ones, and the files that stay, have to match what is given up. -/
theorem historyKept_apply_iff {e : Engine} (he : e.Reachable) {ev : Event} (now : Instant)
    (hev : ∀ s, ev ≠ .snapshot s) (hroom : e.board.HasRoomFor ev) (g : Guid) (m : String) :
    HistoryKept (e.board.sheetsOf g m) ((e.apply ev now).1.board.sheetsOf g m) ↔
      ∀ d taken, e.board.writes? now ev = some (d, taken) → d.guid = g →
        HistoryKept (e.board.givenUp d taken m) (e.board.survivors d taken m) := by
  cases hw : e.board.writes? now ev with
  | none =>
      -- nothing is given up, so both sides hold
      refine iff_of_true ((driven_of_writes?_eq_none hev hw).historyKept ?_ g m) ?_
      · intro a d s hlap hd hs
        cases ev with
        | lapCompleted l =>
            rw [← Driver.sheet_eq_of_sheet? hs]
            exact hroom a d (Board.atCar?_eq_some_iff.2 ⟨hlap, hd⟩)
        | _ => cases hlap
      · intro d taken h
        cases h
  | some w =>
      obtain ⟨d, taken⟩ := w
      rw [(replaces_of_writes?_eq_some he.filed hw).historyKept_iff g m]
      constructor
      · rintro h d' taken' heq
        cases heq
        exact h
      · intro h
        exact h d taken rfl

/-- A driver connects in a car, changes to another one and back, and leaves after a lap, without
having finished loading. -/
def stintsInTwoCars : List Input :=
  let car : CarInfo := { carId := 1, driverName := "Ann", guid := ⟨"a"⟩, model := "m3" }
  [.event (.newConnection car) .zero,
   .event (.newConnection { car with model := "z4" }) .zero,
   .event (.newConnection car) .zero,
   .event (.lapCompleted { carId := 1, millis := 80000 }) .zero,
   .event (.connectionClosed car) .zero]

/-- The history is kept when the driver leaves: the only lap is filed. -/
theorem historyKept_on_leaving :
    let e := initial.run (stintsInTwoCars.take 4)
    let ev : Event := .connectionClosed { guid := ⟨"a"⟩ }
    e.Reachable ∧ (∀ s, ev ≠ .snapshot s) ∧ e.board.HasRoomFor ev ∧
      HistoryKept (e.board.sheetsOf ⟨"a"⟩ "m3") ((e.apply ev .zero).1.board.sheetsOf ⟨"a"⟩ "m3") := by
  intro e ev
  have he : e.Reachable := ⟨_, rfl⟩
  have hev : ∀ s, ev ≠ .snapshot s := fun s h => nomatch h
  have hmatched : (e.board.writes? .zero ev).all (fun w => decide
      (HistoryKept (e.board.givenUp w.1 w.2 "m3") (e.board.survivors w.1 w.2 "m3"))) := by
    decide +kernel
  refine ⟨he, hev, trivial, (historyKept_apply_iff he .zero hev trivial ⟨"a"⟩ "m3").2 ?_⟩
  intro d taken hw _
  rw [hw] at hmatched
  exact of_decide_eq_true hmatched

/-- **A STALE FILE** takes the place of a newer one: the file of the second car has been made
before the lap, stays when the driver leaves, and is picked up when the driver comes back in that
car. The lap is lost. -/
theorem history_of_stale_file :
    ¬ ∀ (e : Engine) (ev : Event) (now : Instant) (g : Guid) (m : String),
      e.Reachable → (∀ s, ev ≠ .snapshot s) → e.board.HasRoomFor ev →
        HistoryKept (e.board.sheetsOf g m) ((e.apply ev now).1.board.sheetsOf g m) := by
  intro h
  have hlost := h (initial.run stintsInTwoCars)
    (.newConnection { carId := 1, driverName := "Ann", guid := ⟨"a"⟩, model := "z4" })
    .zero ⟨"a"⟩ "m3" ⟨_, rfl⟩ (fun s hs => nomatch hs) trivial
  exact absurd hlost.1 (by decide +kernel)

end Engine

end Pitwall
