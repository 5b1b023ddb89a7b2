import Pitwall.Event.Basic
import Pitwall.Proofs.Board.Filing

/-!
# History — what is on record of a driver in a car

The history of a driver in a model of car is spread over the connected record and the filed
ones, each of which may have a lap sheet for the model. **`Board.sheetsOf`** gathers these
sheets, and **`HistoryKept`** compares two such lists by the most laps and the best lap that
stand in them.

Whoever connects or leaves puts one record in the place of filed ones: **`Board.writes?`**.
**`Board.givenUp`** are the sheets that are lost by that, **`Board.survivors`** those that
remain.
-/

namespace Pitwall

namespace LapSheet

/-- The most laps that stand in one of the sheets; 0 where there are none. -/
def mostLaps (sheets : List LapSheet) : Nat := sheets.foldr (fun s n => max s.laps.toNat n) 0

/-- The best lap of the sheets, if a valid one has been set. -/
def fastest? (sheets : List LapSheet) : Option Int64 :=
  ((sheets.filter hasValidLap).map bestLap).min?

theorem mostLaps_le_iff {l : List LapSheet} {n : Nat} :
    mostLaps l ≤ n ↔ ∀ s ∈ l, s.laps.toNat ≤ n := by
  induction l with
  | nil => simp [mostLaps]
  | cons s l ih =>
      show max s.laps.toNat (mostLaps l) ≤ n ↔ _
      rw [List.forall_mem_cons, ← ih]
      omega

theorem le_mostLaps_iff {l : List LapSheet} {k : Nat} :
    k ≤ mostLaps l ↔ k = 0 ∨ ∃ s ∈ l, k ≤ s.laps.toNat := by
  induction l with
  | nil => simp [mostLaps]
  | cons s l ih =>
      show k ≤ max s.laps.toNat (mostLaps l) ↔ _
      constructor
      · intro h
        rcases Nat.le_total (mostLaps l) s.laps.toNat with hs | hs
        · exact Or.inr ⟨s, List.mem_cons_self, by omega⟩
        · rcases ih.1 (by omega) with hk | ⟨t, ht, hk⟩
          · exact Or.inl hk
          · exact Or.inr ⟨t, List.mem_cons_of_mem s ht, hk⟩
      · rintro (hk | ⟨t, ht, hk⟩)
        · omega
        · rcases List.mem_cons.1 ht with rfl | ht
          · omega
          · have := ih.2 (Or.inr ⟨t, ht, hk⟩)
            omega

/-- The sheet is no better than some sheet of the list by its laps, and by its best lap. -/
structure MatchedBy (s : LapSheet) (l : List LapSheet) : Prop where
  laps : s.laps.toNat = 0 ∨ ∃ t ∈ l, s.laps.toNat ≤ t.laps.toNat
  best : s.hasValidLap → ∃ t ∈ l, t.hasValidLap ∧ t.bestLap ≤ s.bestLap

theorem matchedBy_of_mem {s : LapSheet} {l : List LapSheet} (h : s ∈ l) : s.MatchedBy l :=
  ⟨Or.inr ⟨s, h, Nat.le_refl _⟩, fun hv => ⟨s, h, hv, Int64.le_refl _⟩⟩

theorem MatchedBy.congr {s : LapSheet} {l k : List LapSheet} (h : s.MatchedBy l)
    (hlk : ∀ t, t ∈ l → t ∈ k) : s.MatchedBy k where
  laps := by
    rcases h.laps with h0 | ⟨t, ht, hle⟩
    · exact Or.inl h0
    · exact Or.inr ⟨t, hlk t ht, hle⟩
  best := by
    intro hv
    obtain ⟨t, ht, hle⟩ := h.best hv
    exact ⟨t, hlk t ht, hle⟩

end LapSheet

/-- The sheets afterwards show no fewer laps than those before, and where those before show a
valid best lap, those afterwards show one that is no slower. -/
def HistoryKept (before after : List LapSheet) : Prop :=
  LapSheet.mostLaps before ≤ LapSheet.mostLaps after ∧
    ∀ t ∈ LapSheet.fastest? before, ∃ u ∈ LapSheet.fastest? after, u ≤ t

instance (before after : List LapSheet) : Decidable (HistoryKept before after) :=
  -- by the option, not by trying every number
  have (t : Int64) : Decidable (∃ u ∈ LapSheet.fastest? after, u ≤ t) :=
    Option.decidableExistsMem _
  have : Decidable (∀ t ∈ LapSheet.fastest? before, ∃ u ∈ LapSheet.fastest? after, u ≤ t) :=
    Option.decidableForallMem _
  inferInstanceAs (Decidable (_ ∧ _))

theorem historyKept_iff {before after : List LapSheet} :
    HistoryKept before after ↔ ∀ s ∈ before, s.MatchedBy after := by
  have hfast : ∀ (l : List LapSheet) (t : Int64), LapSheet.fastest? l = some t ↔
      (∃ s ∈ l, s.hasValidLap ∧ s.bestLap = t) ∧ ∀ s ∈ l, s.hasValidLap → t ≤ s.bestLap := by
    intro l t
    rw [LapSheet.fastest?, List.min?_eq_some_iff]
    simp only [List.mem_map, List.mem_filter, and_assoc]
    refine and_congr_right fun _ => ⟨fun h s hs hv => h _ ⟨s, hs, hv, rfl⟩, ?_⟩
    rintro h _ ⟨s, hs, hv, rfl⟩
    exact h s hs hv
  constructor
  · rintro ⟨hlaps, hbest⟩ s hs
    refine ⟨LapSheet.le_mostLaps_iff.1 (Nat.le_trans ?_ hlaps), ?_⟩
    · exact LapSheet.mostLaps_le_iff.1 (Nat.le_refl _) s hs
    · intro hv
      -- some sheet before is the fastest, and `s` is no faster
      cases ht : LapSheet.fastest? before with
      | none =>
          rw [LapSheet.fastest?, List.min?_eq_none_iff] at ht
          have hmem : s.bestLap ∈ (before.filter LapSheet.hasValidLap).map LapSheet.bestLap :=
            List.mem_map_of_mem (List.mem_filter.2 ⟨hs, hv⟩)
          rw [ht] at hmem
          exact absurd hmem List.not_mem_nil
      | some t =>
          obtain ⟨u, hu, hut⟩ := hbest t ht
          obtain ⟨⟨r, hr, hrv, hru⟩, -⟩ := (hfast after u).1 hu
          have hts : t ≤ s.bestLap := ((hfast before t).1 ht).2 s hs hv
          exact ⟨r, hr, hrv, hru ▸ Int64.le_trans hut hts⟩
  · intro h
    refine ⟨LapSheet.mostLaps_le_iff.2 (fun s hs => LapSheet.le_mostLaps_iff.2 (h s hs).laps), ?_⟩
    intro t ht
    obtain ⟨⟨s, hs, hv, hst⟩, -⟩ := (hfast before t).1 ht
    obtain ⟨r, hr, hrv, hrs⟩ := (h s hs).best hv
    cases hu : LapSheet.fastest? after with
    | none =>
        rw [LapSheet.fastest?, List.min?_eq_none_iff] at hu
        have hmem : r.bestLap ∈ (after.filter LapSheet.hasValidLap).map LapSheet.bestLap :=
          List.mem_map_of_mem (List.mem_filter.2 ⟨hr, hrv⟩)
        rw [hu] at hmem
        exact absurd hmem List.not_mem_nil
    | some u =>
        have hur : u ≤ r.bestLap := ((hfast after u).1 hu).2 r hr hrv
        exact ⟨u, rfl, hst ▸ Int64.le_trans hur hrs⟩

/-- Where all that is left are survivors, history is kept exactly if the survivors match what is
given up. -/
theorem historyKept_iff_survivors {before after given surviving : List LapSheet}
    (hafter : ∀ s, s ∈ after ↔ s ∈ surviving)
    (hbefore : ∀ s ∈ before, s ∈ given ∨ s ∈ surviving) (hgiven : ∀ s ∈ given, s ∈ before) :
    HistoryKept before after ↔ HistoryKept given surviving := by
  rw [historyKept_iff, historyKept_iff]
  constructor
  · intro h s hs
    exact (h s (hgiven s hs)).congr (fun t => (hafter t).1)
  · intro h s hs
    rcases hbefore s hs with hs | hs
    · exact (h s hs).congr (fun t => (hafter t).2)
    · exact LapSheet.matchedBy_of_mem ((hafter s).2 hs)

namespace Board

/-- All records of a driver: the connected one and the filed ones. -/
def records (b : Board) (g : Guid) : List Driver :=
  (b.connected.get? g).toList ++
    (b.disconnected.entries.filter (fun e => e.1.guid = g)).map Prod.snd

/-- The lap sheets for a model of car in all records of a driver. -/
def sheetsOf (b : Board) (g : Guid) (m : String) : List LapSheet :=
  (b.records g).filterMap (fun d => d.sheets.get? m)

/-- The filed records of a driver, those of some cars only. -/
def filedRecords (b : Board) (g : Guid) (p : String → Bool) : List Driver :=
  (b.disconnected.entries.filter (fun e => e.1.guid = g && p e.1.model)).map Prod.snd

/-- The record that an event of coming or going puts on the board, and the cars whose files it
takes: all cars of the record, or only those with laps when a driver leaves without a usable
stint. -/
def writes? (b : Board) (now : Instant) : Event → Option (Driver × List String)
  | .newConnection car =>
    some (b.joining car now, (b.joining car now).sheets.keys)
  | .connectionClosed car =>
    (b.connected.get? car.guid).map (fun d =>
      (d, if !d.isLoaded || d.totalLaps == 0 then d.lappedModels else d.sheets.keys))
  | _ => none

/-- The sheets for a model that go when a record takes the files of some cars: those of the files,
and that of the record itself where it takes no file at all. -/
def givenUp (b : Board) (d : Driver) (taken : List String) (m : String) : List LapSheet :=
  ((if taken.isEmpty then [d] else []) ++ b.filedRecords d.guid taken.contains).filterMap
    (fun r => r.sheets.get? m)

/-- The sheets for a model that stay: that of the record and those of the files not taken. -/
def survivors (b : Board) (d : Driver) (taken : List String) (m : String) : List LapSheet :=
  ((if taken.isEmpty then [] else [d]) ++
    b.filedRecords d.guid (fun n => !taken.contains n)).filterMap (fun r => r.sheets.get? m)

theorem mem_records {b : Board} {g : Guid} {r : Driver} : r ∈ b.records g ↔
    b.connected.get? g = some r ∨ ∃ n, b.disconnected.get? ⟨g, n⟩ = some r := by
  simp only [records, List.mem_append, Option.mem_toList, List.mem_map, List.mem_filter,
    decide_eq_true_eq]
  refine or_congr_right ⟨?_, ?_⟩
  · rintro ⟨⟨k, q⟩, ⟨hmem, hg⟩, rfl⟩
    refine ⟨k.model, ?_⟩
    subst hg
    exact Keyed.get?_eq_some_iff.2 hmem
  · rintro ⟨n, hr⟩
    exact ⟨(⟨g, n⟩, r), ⟨Keyed.get?_eq_some_iff.1 hr, rfl⟩, rfl⟩

theorem mem_sheetsOf {b : Board} {g : Guid} {m : String} {s : LapSheet} :
    s ∈ b.sheetsOf g m ↔ ∃ r ∈ b.records g, r.sheets.get? m = some s :=
  List.mem_filterMap

theorem mem_filedRecords {b : Board} {g : Guid} {p : String → Bool} {r : Driver} :
    r ∈ b.filedRecords g p ↔ ∃ n, p n = true ∧ b.disconnected.get? ⟨g, n⟩ = some r := by
  simp only [filedRecords, List.mem_map, List.mem_filter, Bool.and_eq_true, decide_eq_true_eq]
  constructor
  · rintro ⟨⟨k, q⟩, ⟨hmem, hg, hp⟩, rfl⟩
    refine ⟨k.model, hp, ?_⟩
    subst hg
    exact Keyed.get?_eq_some_iff.2 hmem
  · rintro ⟨n, hp, hr⟩
    exact ⟨(⟨g, n⟩, r), ⟨Keyed.get?_eq_some_iff.1 hr, rfl, hp⟩, rfl⟩

theorem mem_givenUp {b : Board} {d : Driver} {taken : List String} {m : String} {s : LapSheet} :
    s ∈ b.givenUp d taken m ↔ (taken = [] ∧ d.sheets.get? m = some s) ∨
      ∃ n r, n ∈ taken ∧ b.disconnected.get? ⟨d.guid, n⟩ = some r ∧ r.sheets.get? m = some s := by
  simp only [givenUp, List.mem_filterMap, List.mem_append, mem_filedRecords,
    List.contains_iff_mem]
  constructor
  · rintro ⟨r, hr | ⟨n, hn, hr⟩, hs⟩
    · split at hr
      · next h =>
        rw [List.mem_singleton.1 hr] at hs
        exact Or.inl ⟨List.isEmpty_iff.1 h, hs⟩
      · exact absurd hr List.not_mem_nil
    · exact Or.inr ⟨n, r, hn, hr, hs⟩
  · rintro (⟨rfl, hs⟩ | ⟨n, r, hn, hr, hs⟩)
    · exact ⟨d, Or.inl List.mem_cons_self, hs⟩
    · exact ⟨r, Or.inr ⟨n, hn, hr⟩, hs⟩

theorem mem_survivors {b : Board} {d : Driver} {taken : List String} {m : String} {s : LapSheet} :
    s ∈ b.survivors d taken m ↔ (taken ≠ [] ∧ d.sheets.get? m = some s) ∨
      ∃ n r, n ∉ taken ∧ b.disconnected.get? ⟨d.guid, n⟩ = some r ∧ r.sheets.get? m = some s := by
  simp only [survivors, List.mem_filterMap, List.mem_append, mem_filedRecords,
    Bool.not_eq_true', List.contains_eq_mem, decide_eq_false_iff_not]
  constructor
  · rintro ⟨r, hr | ⟨n, hn, hr⟩, hs⟩
    · split at hr
      · exact absurd hr List.not_mem_nil
      · next h =>
        rw [List.mem_singleton.1 hr] at hs
        exact Or.inl ⟨fun he => h (List.isEmpty_iff.2 he), hs⟩
    · exact Or.inr ⟨n, r, hn, hr, hs⟩
  · rintro (⟨hne, hs⟩ | ⟨n, r, hn, hr, hs⟩)
    · refine ⟨d, Or.inl ?_, hs⟩
      rw [if_neg (fun h => hne (List.isEmpty_iff.1 h))]
      exact List.mem_cons_self
    · exact ⟨r, Or.inr ⟨n, hn, hr⟩, hs⟩

/-! ## Records that take the place of others -/

/-- A record comes in the place of the files of some cars of its driver. -/
structure Replaces (b c : Board) (d : Driver) (taken : List String) : Prop where
  /-- If it takes any file, the sheets of the record are held afterwards. -/
  written : taken ≠ [] → ∃ r ∈ c.records d.guid, r.sheets = d.sheets
  /-- The other files are kept. -/
  kept : ∀ n r, n ∉ taken → b.disconnected.get? ⟨d.guid, n⟩ = some r →
    c.disconnected.get? ⟨d.guid, n⟩ = some r
  /-- Nothing else is held. -/
  only : ∀ r ∈ c.records d.guid,
    (r.sheets = d.sheets ∧ ∀ m s, d.sheets.get? m = some s → taken ≠ []) ∨
      ∃ n, n ∉ taken ∧ b.disconnected.get? ⟨d.guid, n⟩ = some r
  /-- The record has the sheets that its driver was connected with. -/
  connected : ∀ e, b.connected.get? d.guid = some e →
    ∀ m s, e.sheets.get? m = some s → d.sheets.get? m = some s
  /-- If it takes no file, it is the connected record itself. -/
  idle : taken = [] → b.connected.get? d.guid = some d
  /-- Other drivers have the same records as before. -/
  others : ∀ g, g ≠ d.guid → ∀ r, r ∈ c.records g ↔ r ∈ b.records g

variable {b c : Board} {d : Driver} {taken : List String}

/-- The survivors are what is held afterwards. -/
theorem Replaces.mem_sheetsOf_iff (h : b.Replaces c d taken) {m : String} {s : LapSheet} :
    s ∈ c.sheetsOf d.guid m ↔ s ∈ b.survivors d taken m := by
  rw [mem_sheetsOf, mem_survivors]
  constructor
  · rintro ⟨r, hr, hs⟩
    rcases h.only r hr with ⟨hsame, hany⟩ | ⟨n, hn, hfile⟩
    · rw [hsame] at hs
      exact Or.inl ⟨hany m s hs, hs⟩
    · exact Or.inr ⟨n, r, hn, hfile, hs⟩
  · rintro (⟨hany, hs⟩ | ⟨n, r, hn, hfile, hs⟩)
    · obtain ⟨r, hr, hsame⟩ := h.written hany
      exact ⟨r, hr, hsame ▸ hs⟩
    · exact ⟨r, mem_records.2 (Or.inr ⟨n, h.kept n r hn hfile⟩), hs⟩

/-- The driver's history is kept exactly if the survivors match what is given up; other drivers
lose nothing. -/
theorem Replaces.historyKept_iff (h : b.Replaces c d taken) (g : Guid) (m : String) :
    HistoryKept (b.sheetsOf g m) (c.sheetsOf g m) ↔
      (d.guid = g → HistoryKept (b.givenUp d taken m) (b.survivors d taken m)) := by
  by_cases hg : d.guid = g
  · subst hg
    rw [forall_prop_of_true rfl]
    refine historyKept_iff_survivors (fun s => h.mem_sheetsOf_iff) ?_ ?_
    · intro s hs
      obtain ⟨r, hr, hs⟩ := mem_sheetsOf.1 hs
      rcases mem_records.1 hr with hconn | ⟨n, hfile⟩
      · -- a connected sheet stands in the record, which survives or is given up as a whole
        have hd : d.sheets.get? m = some s := h.connected r hconn m s hs
        by_cases ht : taken = []
        · exact Or.inl (mem_givenUp.2 (Or.inl ⟨ht, hd⟩))
        · exact Or.inr (mem_survivors.2 (Or.inl ⟨ht, hd⟩))
      · by_cases hn : n ∈ taken
        · exact Or.inl (mem_givenUp.2 (Or.inr ⟨n, r, hn, hfile, hs⟩))
        · exact Or.inr (mem_survivors.2 (Or.inr ⟨n, r, hn, hfile, hs⟩))
    · intro s hs
      rcases mem_givenUp.1 hs with ⟨ht, hd⟩ | ⟨n, r, -, hfile, hs⟩
      · exact mem_sheetsOf.2 ⟨d, mem_records.2 (Or.inl (h.idle ht)), hd⟩
      · exact mem_sheetsOf.2 ⟨r, mem_records.2 (Or.inr ⟨n, hfile⟩), hs⟩
  · rw [Pitwall.historyKept_iff]
    refine iff_of_true ?_ (fun hd => absurd hd hg)
    intro s hs
    obtain ⟨r, hr, hs⟩ := mem_sheetsOf.1 hs
    have hafter : r ∈ c.records g := (h.others g (fun he => hg he.symm) r).2 hr
    exact LapSheet.matchedBy_of_mem (mem_sheetsOf.2 ⟨r, hafter, hs⟩)

end Board

end Pitwall
