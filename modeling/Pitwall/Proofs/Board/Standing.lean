import Pitwall.Board.Standings
import Pitwall.Proofs.Data.Lookup
import Pitwall.Proofs.Data.Sorting
import Pitwall.Proofs.Numeric.Number

/-!
# Standings — there is one right order

Where an order tells all records of a keyed list apart, sorting gives the one arrangement of the
keys in which every record stands before those behind it (**`eq_sortedKeys_iff`**), and it does not
show in which order the records stood before (**`sortedKeys_congr`**).

The order of a race goes by laps, then by the place on the lap as a word, then by the server's rank,
then by the driver. Each of these is a lawful order of its own, and so is the order of the four one
after the other; level are only records alike in all four (`Driver.racingOrder_eq_iff`). As the last
one tells drivers apart, **`race_standing_unique`** holds of all connected drivers, whatever their
records are.
-/

namespace Pitwall

/-! ## Sorted keys -/

theorem sortedKeys_perm {κ : Type} {order : κ × Driver → κ × Driver → Ordering}
    (m : Keyed κ Driver) : (sortedKeys order m.entries).Perm m.keys :=
  (List.mergeSort_perm _ _).map Prod.fst

section Sorted

variable {κ : Type} [DecidableEq κ] {order : κ × Driver → κ × Driver → Ordering}

/-- The record under a key stands before the record under another one. -/
def Keyed.Before (m : Keyed κ Driver) (order : κ × Driver → κ × Driver → Ordering) (k j : κ) :
    Prop :=
  ∃ d ∈ m.get? k, ∃ e ∈ m.get? j, order (k, d) (j, e) = .lt

instance (m : Keyed κ Driver) (k j : κ) : Decidable (m.Before order k j) :=
  inferInstanceAs (Decidable (∃ d ∈ m.get? k, ∃ e ∈ m.get? j, order (k, d) (j, e) = .lt))

variable [Std.TransCmp order]

/-- No two records stand before each other. -/
theorem Keyed.Before.asymm {m : Keyed κ Driver} {k j : κ} (hkj : m.Before order k j)
    (hjk : m.Before order j k) : False := by
  obtain ⟨d, hd, e, he, hlt⟩ := hkj
  obtain ⟨e', he', d', hd', hlt'⟩ := hjk
  obtain rfl : d = d' := Option.some.inj (hd.symm.trans hd')
  obtain rfl : e = e' := Option.some.inj (he.symm.trans he')
  rw [Std.OrientedCmp.gt_of_lt hlt] at hlt'
  cases hlt'

/-- Sorting puts every record before those behind it, if the order tells them apart. -/
theorem pairwise_sortedKeys {m : Keyed κ Driver}
    (h : ∀ a ∈ m.entries, ∀ b ∈ m.entries, order a b = .eq → a.1 = b.1) :
    (sortedKeys order m.entries).Pairwise (m.Before order) := by
  have hne : m.entries.Pairwise (fun a b => order a b ≠ .eq) := by
    have hkeys : m.entries.Pairwise (fun a b => a.1 ≠ b.1) := List.pairwise_map.1 m.distinct
    refine hkeys.imp_of_mem ?_
    intro a b ha hb hab heq
    exact hab (h a ha b hb heq)
  rw [sortedKeys, List.pairwise_map]
  refine (pairwise_lt_mergeSort hne).imp_of_mem ?_
  intro a b ha hb hlt
  rw [List.mem_mergeSort] at ha hb
  exact ⟨a.2, Keyed.get?_eq_some_iff.2 ha, b.2, Keyed.get?_eq_some_iff.2 hb, hlt⟩

/-- **ONE ORDER**: the sorted keys are the only arrangement of the keys in which every record stands
before those behind it. -/
theorem eq_sortedKeys_iff {m : Keyed κ Driver}
    (h : ∀ a ∈ m.entries, ∀ b ∈ m.entries, order a b = .eq → a.1 = b.1) {l : List κ} :
    l = sortedKeys order m.entries ↔ l.Perm m.keys ∧ l.Pairwise (m.Before order) := by
  constructor
  · rintro rfl
    exact ⟨sortedKeys_perm m, pairwise_sortedKeys h⟩
  · rintro ⟨hperm, hpairs⟩
    refine List.Perm.eq_of_pairwise ?_ hpairs (pairwise_sortedKeys h)
      (hperm.trans (sortedKeys_perm m).symm)
    intro k j _ _ hkj hjk
    exact (hkj.asymm hjk).elim

/-- In which order the records stand before sorting does not show. -/
theorem sortedKeys_congr {m n : Keyed κ Driver} (hmn : n.Agrees m)
    (h : ∀ a ∈ m.entries, ∀ b ∈ m.entries, order a b = .eq → a.1 = b.1) :
    sortedKeys order n.entries = sortedKeys order m.entries := by
  have hmem : ∀ a, a ∈ n.entries → a ∈ m.entries := by
    intro a ha
    rw [← Keyed.get?_eq_some_iff, ← hmn, Keyed.get?_eq_some_iff]
    exact ha
  have hbefore : n.Before order = m.Before order := by
    funext k j
    rw [Keyed.Before, Keyed.Before, hmn, hmn]
  have hn := pairwise_sortedKeys (m := n) fun a ha b hb => h a (hmem a ha) b (hmem b hb)
  rw [hbefore] at hn
  exact (eq_sortedKeys_iff h).2 ⟨(sortedKeys_perm n).trans hmn.keys_perm, hn⟩

end Sorted

/-! ## The order of a race -/

namespace Binary

variable {f : Format}

/-- A word is its sign and its magnitude. -/
theorem toBits_eq (hf : 0 < f.precision) (x : Binary f) :
    x.toBits = (if x.negative then Nat.pow 2 (f.width - 1) else 0) + x.magnitude := by
  have hwidth := f.pow_width hf
  have hlt : x.toBits < Nat.pow 2 f.width := x.bits.isLt
  rw [negative, BitVec.msb_eq_decide, magnitude]
  show x.toBits =
    (if decide (Nat.pow 2 (f.width - 1) ≤ x.toBits) = true then _ else 0) + _
  by_cases hbig : Nat.pow 2 (f.width - 1) ≤ x.toBits
  · have hrest : x.toBits - Nat.pow 2 (f.width - 1) < Nat.pow 2 (f.width - 1) := by omega
    rw [if_pos (decide_eq_true hbig), Nat.mod_eq_sub_mod hbig, Nat.mod_eq_of_lt hrest]
    omega
  · rw [if_neg (by simpa using hbig), Nat.mod_eq_of_lt (Nat.lt_of_not_le hbig), Nat.zero_add]

/-- Different words have different places in the total order. -/
theorem totalKey_injective (hf : 0 < f.precision) {x y : Binary f}
    (h : x.totalKey = y.totalKey) : x = y := by
  have hboth : x.negative = y.negative ∧ x.magnitude = y.magnitude := by
    rw [totalKey, totalKey] at h
    cases hx : x.negative <;> cases hy : y.negative <;>
      simp only [hx, hy, Bool.false_eq_true, if_false, if_true] at h
    · exact ⟨rfl, by omega⟩
    · omega
    · omega
    · exact ⟨rfl, by omega⟩
  have hbits : x.toBits = y.toBits := by
    rw [toBits_eq hf, toBits_eq hf, hboth.1, hboth.2]
  cases x
  cases y
  exact congrArg Binary.mk (BitVec.eq_of_toNat_eq hbits)

instance : Std.TransCmp (totalOrder (f := f)) :=
  inferInstanceAs (Std.TransCmp (compareOn totalKey))

theorem totalOrder_eq_iff (hf : 0 < f.precision) {x y : Binary f} :
    x.totalOrder y = .eq ↔ x = y := by
  constructor
  · intro h
    exact totalKey_injective hf (Std.LawfulEqOrd.eq_of_compare h)
  · rintro rfl
    exact Std.ReflCmp.compare_self

end Binary

/-- A lawful order of a part of the data is one of the data. -/
theorem transCmp_on {α β : Type} (part : α → β) (order : β → β → Ordering) [Std.TransCmp order] :
    Std.TransCmp (fun a b => order (part a) (part b)) where
  eq_swap := Std.OrientedCmp.eq_swap
  isLE_trans := Std.TransCmp.isLE_trans

namespace Driver

instance : Std.TransCmp racingOrder := by
  have byLaps : Std.TransCmp (fun a b : Driver => compare a.totalLaps b.totalLaps) :=
    transCmp_on totalLaps compare
  have bySpline : Std.TransCmp (fun a b : Driver => a.spline.totalOrder b.spline) :=
    transCmp_on spline Binary.totalOrder
  have byRank : Std.TransCmp (fun a b : Driver => compare a.serverRank b.serverRank) :=
    transCmp_on serverRank compare
  have byGuid : Std.TransCmp (fun a b : Driver => compare a.guid b.guid) :=
    transCmp_on guid compare
  -- laps and place on the lap count downwards
  have lapsDown := byLaps.opposite
  have splineDown := bySpline.opposite
  exact inferInstanceAs (Std.TransCmp
    (compareLex (fun a b : Driver => compare b.totalLaps a.totalLaps)
      (compareLex (fun a b : Driver => b.spline.totalOrder a.spline)
        (compareLex (fun a b : Driver => compare a.serverRank b.serverRank)
          (fun a b : Driver => compare a.guid b.guid)))))

/-- Only drivers alike in all that the order looks at stand level. -/
theorem racingOrder_eq_iff {a b : Driver} :
    a.racingOrder b = .eq ↔
      a.totalLaps = b.totalLaps ∧ a.spline = b.spline ∧ a.serverRank = b.serverRank ∧
        a.guid = b.guid := by
  have hsingle : 0 < Format.single.precision := by decide
  rw [racingOrder, Ordering.then_eq_eq, Ordering.then_eq_eq, Ordering.then_eq_eq,
    Std.LawfulEqOrd.compare_eq_iff_eq, Std.LawfulEqOrd.compare_eq_iff_eq,
    Std.LawfulEqOrd.compare_eq_iff_eq, Binary.totalOrder_eq_iff hsingle, eq_comm (a := b.totalLaps),
    eq_comm (a := b.spline)]

end Driver

instance : Std.TransCmp (fun a b : Guid × Driver => a.2.racingOrder b.2) :=
  transCmp_on Prod.snd Driver.racingOrder

/-- Records under their own GUIDs are told apart by the order of a race, which ends with the
GUIDs. -/
theorem fst_eq_of_racingOrder {m : Keyed Guid Driver}
    (own : ∀ g d, m.get? g = some d → d.guid = g) :
    ∀ a ∈ m.entries, ∀ b ∈ m.entries, a.2.racingOrder b.2 = .eq → a.1 = b.1 := by
  intro a ha b hb hab
  have hguid := (Driver.racingOrder_eq_iff.1 hab).2.2.2
  rwa [own a.1 a.2 (Keyed.get?_eq_some_iff.2 ha), own b.1 b.2 (Keyed.get?_eq_some_iff.2 hb)]
    at hguid

/-- **THE RACE HAS ONE STANDING**: whatever the records say, not-a-numbers, signed zeros and missing
ranks included, the order of a race is total, and level are only records with the same laps, the
same word for the place on the lap, the same rank and the same driver. So if the records stand under
their own drivers, the standing is the only arrangement of them in which every one stands before
those behind it, and it is the same in whichever order the records are enumerated. -/
theorem race_standing_unique :
    (∀ a b : Driver, b.racingOrder a = (a.racingOrder b).swap) ∧
    (∀ a b c : Driver, a.racingOrder b = .lt → b.racingOrder c = .lt → a.racingOrder c = .lt) ∧
    (∀ a b c : Driver, (a.racingOrder b).isLE → (b.racingOrder c).isLE → (a.racingOrder c).isLE) ∧
    (∀ a b : Driver, (a.racingOrder b).isLE ∨ (b.racingOrder a).isLE) ∧
    (∀ a b : Driver, a.racingOrder b = .eq ↔
      a.totalLaps = b.totalLaps ∧ a.spline = b.spline ∧ a.serverRank = b.serverRank ∧
        a.guid = b.guid) ∧
    ∀ m : Keyed Guid Driver, (∀ g d, m.get? g = some d → d.guid = g) →
      (∀ l : List Guid, l = standing .race m ↔
        l.Perm m.keys ∧ l.Pairwise (m.Before fun a b => a.2.racingOrder b.2)) ∧
      ∀ n : Keyed Guid Driver, n.Agrees m → standing .race n = standing .race m := by
  refine ⟨fun a b => Std.OrientedCmp.eq_swap, fun a b c => Std.TransCmp.lt_trans,
    fun a b c => Std.TransCmp.isLE_trans, fun a b => ?_, fun a b => Driver.racingOrder_eq_iff, ?_⟩
  · have hswap : b.racingOrder a = (a.racingOrder b).swap := Std.OrientedCmp.eq_swap
    rw [hswap]
    cases a.racingOrder b <;> simp
  · intro m own
    have apart : ∀ a ∈ m.entries, ∀ b ∈ m.entries, a.2.racingOrder b.2 = .eq → a.1 = b.1 := by
      intro a ha b hb hab
      have hguid := (Driver.racingOrder_eq_iff.1 hab).2.2.2
      rwa [own a.1 a.2 (Keyed.get?_eq_some_iff.2 ha), own b.1 b.2 (Keyed.get?_eq_some_iff.2 hb)]
        at hguid
    constructor
    · intro l
      exact eq_sortedKeys_iff apart
    · intro n hn
      exact sortedKeys_congr hn apart

/-- A driver whose place on the lap is no number stands first; a driver without a rank and one on
the last rank of all go by their GUIDs; and `-0` stands behind `0`, whatever the rank. -/
theorem race_standing_of_odd_records :
    let grid : Keyed Guid Driver :=
      ⟨[(⟨"z"⟩, { car := { guid := ⟨"z"⟩ }, position := 1, spline := .zero true }),
        (⟨"u"⟩, { car := { guid := ⟨"u"⟩ }, position := 255 }),
        (⟨"r"⟩, { car := { guid := ⟨"r"⟩ }, position := Int32.maxValue }),
        (⟨"n"⟩, { car := { guid := ⟨"n"⟩ }, spline := .nan })], by decide⟩
    standing .race grid = [⟨"n"⟩, ⟨"r"⟩, ⟨"u"⟩, ⟨"z"⟩] := by
  intro grid
  have own : ∀ g d, grid.get? g = some d → d.guid = g := by
    intro g d h
    have all : ∀ e ∈ grid.entries, e.2.guid = e.1 := by decide
    exact all (g, d) (Keyed.get?_eq_some_iff.1 h)
  obtain ⟨only, -⟩ := race_standing_unique.2.2.2.2.2 grid own
  exact ((only _).2 ⟨by decide, by decide⟩).symm

end Pitwall
