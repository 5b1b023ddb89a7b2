import Pitwall.Proofs.Board.Standing
import Pitwall.Proofs.Data.Suffix

/-!
# The standing of those who left — by laps or by best lap

The records of drivers who left stand under slots, and slots tell them apart where laps or lap times
do not. So in a race there is one arrangement in which laps never go up on the way down
(**`Keyed.ByLaps`**), and in any other session one in which the best laps come first, fastest on
top, and the records without a best lap follow (**`Keyed.ByBestLap`**). That is the standing:
**`left_standing_unique`**.

A record without a best lap ranks behind every best lap, so the order outside of races is that of
two keys one after the other (**`Driver.leftOrder_of_ne_race`**), which makes it lawful.
-/

namespace Pitwall

namespace Driver

variable {kind : SessionKind}

/-- The best lap that counts is the one on the active sheet, if it is above zero. -/
theorem activeBestLap?_eq (d : Driver) :
    d.activeBestLap? = (d.sheets.get? d.model).bind
      (fun s => if 0 < s.bestLap then some s.bestLap else none) := by
  rw [activeBestLap?, sheet?]
  cases d.sheets.get? d.model with
  | none => rfl
  | some s =>
      rw [Option.filter_some, Option.bind_some, LapSheet.hasValidLap]
      by_cases h : 0 < s.bestLap
      · rw [if_pos (decide_eq_true h), if_pos h, Option.map_some]
      · rw [if_neg (by simpa using h), if_neg h, Option.map_none]

theorem leftOrder_race (a b : Driver) :
    leftOrder .race a b = compare b.activeLaps a.activeLaps := rfl

/-- Outside of races, first come those with a best lap, and among them the faster ones. -/
theorem leftOrder_of_ne_race (h : kind ≠ .race) (a b : Driver) :
    leftOrder kind a b =
      (compare a.activeBestLap?.isNone b.activeBestLap?.isNone).then
        (compare (a.activeBestLap?.getD 0) (b.activeBestLap?.getD 0)) := by
  rw [leftOrder, if_neg h]
  cases a.activeBestLap? <;> cases b.activeBestLap? <;> rfl

instance : Std.TransCmp (leftOrder kind) := by
  by_cases h : kind = .race
  · subst h
    have byLaps : Std.TransCmp (fun a b : Driver => compare a.activeLaps b.activeLaps) :=
      transCmp_on activeLaps compare
    exact byLaps.opposite
  · have untimedLast : Std.TransCmp
        (fun a b : Driver => compare a.activeBestLap?.isNone b.activeBestLap?.isNone) :=
      transCmp_on (fun d : Driver => d.activeBestLap?.isNone) compare
    have byTime : Std.TransCmp
        (fun a b : Driver => compare (a.activeBestLap?.getD 0) (b.activeBestLap?.getD 0)) :=
      transCmp_on (fun d : Driver => d.activeBestLap?.getD 0) compare
    have horder : leftOrder kind = compareLex
        (fun a b : Driver => compare a.activeBestLap?.isNone b.activeBestLap?.isNone)
        (fun a b : Driver => compare (a.activeBestLap?.getD 0) (b.activeBestLap?.getD 0)) :=
      funext fun a => funext fun b => leftOrder_of_ne_race h a b
    rw [horder]
    infer_instance

end Driver

/-- The order of the records of those who left, with their slots. -/
def slotOrder (kind : SessionKind) (a b : Slot × Driver) : Ordering :=
  (Driver.leftOrder kind a.2 b.2).then (compare a.1 b.1)

instance (kind : SessionKind) : Std.TransCmp (slotOrder kind) := by
  have byRecord : Std.TransCmp (fun a b : Slot × Driver => Driver.leftOrder kind a.2 b.2) :=
    transCmp_on Prod.snd (Driver.leftOrder kind)
  have bySlot : Std.TransCmp (fun a b : Slot × Driver => compare a.1 b.1) :=
    transCmp_on Prod.fst compare
  exact inferInstanceAs (Std.TransCmp (compareLex
    (fun a b : Slot × Driver => Driver.leftOrder kind a.2 b.2)
    (fun a b : Slot × Driver => compare a.1 b.1)))

/-- Level are only records under the same slot. -/
theorem fst_eq_of_slotOrder {kind : SessionKind} {a b : Slot × Driver}
    (h : slotOrder kind a b = .eq) : a.1 = b.1 :=
  Std.LawfulEqOrd.eq_of_compare (Ordering.then_eq_eq.1 h).2

/-- One key before another one decides, unless it is the same on both sides. -/
theorem compare_then_eq_lt {α : Type} [Ord α] [LE α] [Std.LawfulOrderOrd α] [Std.LawfulEqOrd α]
    {a b : α} {o : Ordering} : (compare a b).then o = .lt ↔ a ≤ b ∧ (a = b → o = .lt) := by
  rw [← Std.isLE_compare, ← Std.compare_eq_iff_eq (a := a) (b := b)]
  cases compare a b <;> simp

/-! ## What the standing is to be -/

namespace Keyed

variable (m : Keyed Slot Driver)

/-- The laps of the record under a slot, in its active car. -/
def lapsAt (k : Slot) : UInt32 :=
  (m.get? k).elim 0 fun d => (d.sheets.get? d.model).elim 0 LapSheet.laps

/-- The best lap of the record under a slot, in its active car; one that is not above zero does not
count. -/
def bestAt? (k : Slot) : Option Int64 :=
  (m.get? k).bind fun d => (d.sheets.get? d.model).bind fun s =>
    if 0 < s.bestLap then some s.bestLap else none

/-- Laps never go up on the way down, and records with the same laps go by their slots. -/
def ByLaps (l : List Slot) : Prop :=
  l.Pairwise fun k j => m.lapsAt j ≤ m.lapsAt k ∧ (m.lapsAt j = m.lapsAt k → compare k j = .lt)

/-- The records with a best lap come first, and none is slower than one below; the others follow.
Records that tie go by their slots. -/
def ByBestLap (l : List Slot) : Prop :=
  ∃ timed others, l = timed ++ others ∧
    timed.Pairwise (fun k j => ∃ s ∈ m.bestAt? k, ∃ t ∈ m.bestAt? j,
      s ≤ t ∧ (s = t → compare k j = .lt)) ∧
    (∀ k ∈ timed, (m.bestAt? k).isSome) ∧ (∀ k ∈ others, m.bestAt? k = none) ∧
    others.Pairwise (fun k j => compare k j = .lt)

variable {m} {l : List Slot} {k j : Slot} {d e : Driver}

theorem lapsAt_of_get? (hd : m.get? k = some d) : m.lapsAt k = d.activeLaps := by
  rw [lapsAt, hd]
  rfl

theorem bestAt?_of_get? (hd : m.get? k = some d) : m.bestAt? k = d.activeBestLap? := by
  rw [bestAt?, hd, Driver.activeBestLap?_eq]
  rfl

/-- What stands before what, told from the two records. -/
theorem before_slotOrder_iff {kind : SessionKind} (hd : m.get? k = some d)
    (he : m.get? j = some e) :
    m.Before (slotOrder kind) k j ↔ (Driver.leftOrder kind d e).then (compare k j) = .lt := by
  constructor
  · rintro ⟨d', hd', e', he', hlt⟩
    obtain rfl : d = d' := Option.some.inj (hd.symm.trans hd')
    obtain rfl : e = e' := Option.some.inj (he.symm.trans he')
    exact hlt
  · intro hlt
    exact ⟨d, hd, e, he, hlt⟩

/-- In a race, the order goes by laps. -/
theorem pairwise_before_race_iff (hl : ∀ k ∈ l, k ∈ m.keys) :
    l.Pairwise (m.Before (slotOrder .race)) ↔ m.ByLaps l := by
  refine List.Pairwise.iff_of_mem fun {k j} hk hj => ?_
  obtain ⟨d, hd⟩ := mem_keys_iff.1 (hl k hk)
  obtain ⟨e, he⟩ := mem_keys_iff.1 (hl j hj)
  rw [before_slotOrder_iff hd he, Driver.leftOrder_race, compare_then_eq_lt, lapsAt_of_get? hd,
    lapsAt_of_get? he]

variable {kind : SessionKind} (hkind : kind ≠ .race)

include hkind

/-- Outside of races, the order looks at the best laps alone. -/
theorem before_iff_bestAt (hk : k ∈ m.keys) (hj : j ∈ m.keys) :
    m.Before (slotOrder kind) k j ↔
      match m.bestAt? k, m.bestAt? j with
      | some s, some t => s ≤ t ∧ (s = t → compare k j = .lt)
      | some _, none => True
      | none, some _ => False
      | none, none => compare k j = .lt := by
  obtain ⟨d, hd⟩ := mem_keys_iff.1 hk
  obtain ⟨e, he⟩ := mem_keys_iff.1 hj
  rw [before_slotOrder_iff hd he, Driver.leftOrder_of_ne_race hkind, bestAt?_of_get? hd,
    bestAt?_of_get? he]
  cases d.activeBestLap? with
  | none =>
      cases e.activeBestLap? with
      | none => rfl
      | some t => exact iff_of_false (fun h => nomatch h) id
  | some s =>
      cases e.activeBestLap? with
      | none => exact iff_of_true rfl trivial
      | some t => exact compare_then_eq_lt

/-- Outside of races, the order goes by best laps. -/
theorem pairwise_before_iff (hl : ∀ k ∈ l, k ∈ m.keys) :
    l.Pairwise (m.Before (slotOrder kind)) ↔ m.ByBestLap l := by
  have hbefore : ∀ {k j}, k ∈ l → j ∈ l → _ := fun {k j} hk hj =>
    before_iff_bestAt hkind (hl k hk) (hl j hj)
  constructor
  · intro h
    let timed (k : Slot) : Bool := (m.bestAt? k).isSome
    -- nothing with a best lap stands behind anything without
    have hfront : l.Pairwise (fun k j => timed j = true → timed k = true) := by
      refine h.imp_of_mem fun {k j} hk hj hkj hbest => ?_
      obtain ⟨t, ht⟩ := Option.isSome_iff_exists.1 hbest
      rw [hbefore hk hj, ht] at hkj
      cases hs : m.bestAt? k with
      | none => rw [hs] at hkj; exact hkj.elim
      | some s => exact Option.isSome_iff_exists.2 ⟨s, hs⟩
    have hothers := dropWhile_eq_filter_iff.2 hfront
    have htimed : ∀ k ∈ l.takeWhile timed, timed k = true := fun k hk =>
      List.all_eq_true.1 List.all_takeWhile k hk
    have hnone : ∀ k ∈ l.dropWhile timed, m.bestAt? k = none := by
      intro k hk
      rw [hothers, List.mem_filter] at hk
      simpa [timed] using hk.2
    refine ⟨l.takeWhile timed, l.dropWhile timed, List.takeWhile_append_dropWhile.symm, ?_, htimed,
      hnone, ?_⟩
    · refine (h.sublist (List.takeWhile_sublist _)).imp_of_mem fun {k j} hk hj hkj => ?_
      obtain ⟨s, hs⟩ := Option.isSome_iff_exists.1 (htimed k hk)
      obtain ⟨t, ht⟩ := Option.isSome_iff_exists.1 (htimed j hj)
      rw [hbefore ((List.takeWhile_sublist _).subset hk) ((List.takeWhile_sublist _).subset hj),
        hs, ht] at hkj
      exact ⟨s, hs, t, ht, hkj⟩
    · refine (h.sublist (List.dropWhile_sublist _)).imp_of_mem fun {k j} hk hj hkj => ?_
      rw [hbefore ((List.dropWhile_sublist _).subset hk) ((List.dropWhile_sublist _).subset hj),
        hnone k hk, hnone j hj] at hkj
      exact hkj
  · rintro ⟨timed, others, rfl, htimed, hsome, hnone, hothers⟩
    refine List.pairwise_append.2 ⟨?_, ?_, ?_⟩
    · refine htimed.imp_of_mem fun {k j} hk hj hkj => ?_
      obtain ⟨s, hs, t, ht, hst⟩ := hkj
      rw [hbefore (List.mem_append_left _ hk) (List.mem_append_left _ hj), hs, ht]
      exact hst
    · refine hothers.imp_of_mem fun {k j} hk hj hkj => ?_
      rw [hbefore (List.mem_append_right _ hk) (List.mem_append_right _ hj), hnone k hk, hnone j hj]
      exact hkj
    · intro k hk j hj
      obtain ⟨s, hs⟩ := Option.isSome_iff_exists.1 (hsome k hk)
      rw [hbefore (List.mem_append_left _ hk) (List.mem_append_right _ hj), hs, hnone j hj]
      trivial

end Keyed

/-! ## The standing -/

/-- The records of those who left are told apart, so in which order they stood before does not
show. -/
theorem leftStanding_congr (kind : SessionKind) {m n : Keyed Slot Driver} (hn : n.Agrees m) :
    leftStanding kind n = leftStanding kind m := by
  show sortedKeys (slotOrder kind) n.entries = sortedKeys (slotOrder kind) m.entries
  exact sortedKeys_congr hn fun _ _ _ _ => fst_eq_of_slotOrder

/-- **THOSE WHO LEFT HAVE ONE STANDING**: whatever records stand under the slots, it is the only
arrangement of the slots in which, in a race, the laps in the active car never go up on the way
down, and in any other session the records with a best lap above zero come first, the faster ones
before the slower ones, and all others follow, with ties going by driver and model. In which order
the records are enumerated does not show. -/
theorem left_standing_unique (kind : SessionKind) (m : Keyed Slot Driver) :
    (∀ l : List Slot, l = leftStanding kind m ↔
      l.Perm m.keys ∧ if kind = .race then m.ByLaps l else m.ByBestLap l) ∧
    ∀ n : Keyed Slot Driver, n.Agrees m → leftStanding kind n = leftStanding kind m := by
  refine ⟨fun l => ?_, fun n hn => leftStanding_congr kind hn⟩
  have hsorted : l = leftStanding kind m ↔
      l.Perm m.keys ∧ l.Pairwise (m.Before (slotOrder kind)) :=
    eq_sortedKeys_iff fun _ _ _ _ => fst_eq_of_slotOrder
  rw [hsorted]
  refine and_congr_right fun hperm => ?_
  have hheld : ∀ k ∈ l, k ∈ m.keys := fun k hk => hperm.mem_iff.1 hk
  by_cases hkind : kind = .race
  · subst hkind
    rw [if_pos rfl]
    exact Keyed.pairwise_before_race_iff hheld
  · rw [if_neg hkind]
    exact Keyed.pairwise_before_iff hkind hheld

/-- Two cars of one driver tie; one driver has laps but no valid one, one has a best lap below zero,
and one has no sheet for the active car. -/
theorem left_standing_of_tied_records :
    let sheet (best : Int64) (laps : UInt32) : Table String LapSheet :=
      Table.ofList [("m3", { bestLap := best, laps })]
    let record (guid : String) (sheets : Table String LapSheet) : Driver :=
      { car := { guid := ⟨guid⟩, model := "m3" }, sheets }
    let files : Keyed Slot Driver :=
      ⟨[(⟨⟨"e"⟩, "m3"⟩, record "e" (sheet (-5) 1)), (⟨⟨"d"⟩, "m3"⟩, record "d" .empty),
        (⟨⟨"b"⟩, "z4"⟩, record "b" (sheet 91 3)), (⟨⟨"b"⟩, "m3"⟩, record "b" (sheet 91 3)),
        (⟨⟨"a"⟩, "m3"⟩, record "a" (sheet 0 9)), (⟨⟨"c"⟩, "m3"⟩, record "c" (sheet 89 1))],
        by decide⟩
    leftStanding .practice files =
        [⟨⟨"c"⟩, "m3"⟩, ⟨⟨"b"⟩, "m3"⟩, ⟨⟨"b"⟩, "z4"⟩, ⟨⟨"a"⟩, "m3"⟩, ⟨⟨"d"⟩, "m3"⟩, ⟨⟨"e"⟩, "m3"⟩] ∧
      leftStanding .race files =
        [⟨⟨"a"⟩, "m3"⟩, ⟨⟨"b"⟩, "m3"⟩, ⟨⟨"b"⟩, "z4"⟩, ⟨⟨"c"⟩, "m3"⟩, ⟨⟨"e"⟩, "m3"⟩,
          ⟨⟨"d"⟩, "m3"⟩] := by
  intro sheet record files
  constructor
  · refine (((left_standing_unique .practice files).1 _).2 ⟨by decide, ?_⟩).symm
    exact ⟨[⟨⟨"c"⟩, "m3"⟩, ⟨⟨"b"⟩, "m3"⟩, ⟨⟨"b"⟩, "z4"⟩],
      [⟨⟨"a"⟩, "m3"⟩, ⟨⟨"d"⟩, "m3"⟩, ⟨⟨"e"⟩, "m3"⟩], rfl,
      by decide, by decide, by decide, by decide⟩
  · refine (((left_standing_unique .race files).1 _).2 ⟨by decide, ?_⟩).symm
    show files.ByLaps _
    unfold Keyed.ByLaps
    decide

end Pitwall
