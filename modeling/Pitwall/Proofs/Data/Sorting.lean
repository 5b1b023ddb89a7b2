import Mathlib.Data.List.Pairwise

/-!
# Sorting — the one list that an order allows

Where an order tells all entries of a list apart, there is exactly one way to arrange them: sorting
gives a strictly ascending list (**`pairwise_lt_mergeSort`**), and every strictly ascending
arrangement is the sorted one (**`eq_mergeSort_of_pairwise_lt`**). In which order the entries came
does not show.
-/

namespace Pitwall

variable {α : Type} {cmp : α → α → Ordering} [Std.TransCmp cmp] {l s : List α}

/-- Sorting puts nothing before what stands before it. -/
theorem pairwise_ne_gt_mergeSort (l : List α) :
    (l.mergeSort (fun a b => cmp a b != .gt)).Pairwise (fun a b => cmp a b ≠ .gt) := by
  have hle : ∀ a b, (cmp a b != .gt) = (cmp a b).isLE := by
    intro a b
    cases cmp a b <;> rfl
  have hsorted : (l.mergeSort (fun a b => cmp a b != .gt)).Pairwise
      (fun a b => (cmp a b != .gt) = true) := List.pairwise_mergeSort ?trans ?total l
  case trans =>
    intro a b c hab hbc
    rw [hle] at hab hbc ⊢
    exact Std.TransCmp.isLE_trans hab hbc
  case total =>
    intro a b
    have hswap : cmp b a = (cmp a b).swap := Std.OrientedCmp.eq_swap
    rw [hle, hle, hswap]
    cases cmp a b <;> rfl
  refine hsorted.imp fun {a b} h => ?_
  simpa using h

theorem symm_ne_eq {a b : α} (h : cmp a b ≠ .eq) : cmp b a ≠ .eq :=
  fun hba => h (Std.OrientedCmp.eq_symm hba)

/-- Where no two entries are equal for the order, sorting makes the list strictly ascending. -/
theorem pairwise_lt_mergeSort (h : l.Pairwise (fun a b => cmp a b ≠ .eq)) :
    (l.mergeSort (fun a b => cmp a b != .gt)).Pairwise (fun a b => cmp a b = .lt) := by
  have hne := ((List.mergeSort_perm l fun a b => cmp a b != .gt).pairwise_iff symm_ne_eq).2 h
  refine (hne.and (pairwise_ne_gt_mergeSort l)).imp fun {a b} hab => ?_
  cases hc : cmp a b with
  | lt => rfl
  | eq => exact absurd hc hab.1
  | gt => exact absurd hc hab.2

/-- In a strictly ascending list, entries that are equal for the order are the same. -/
theorem eq_of_pairwise_lt (hs : s.Pairwise (fun a b => cmp a b = .lt)) {a b : α} (ha : a ∈ s)
    (hb : b ∈ s) (h : cmp a b = .eq) : a = b := by
  by_contra hab
  have hne : s.Pairwise (fun a b => cmp a b ≠ .eq) := hs.imp fun {a b} hlt heq => by
    rw [hlt] at heq
    cases heq
  have : Std.Symm (fun a b => cmp a b ≠ .eq) := ⟨fun _ _ => symm_ne_eq⟩
  exact hne.forall ha hb hab h

/-- **ONE ARRANGEMENT**: a strictly ascending list is what sorting makes of its entries, in whatever
order they came. -/
theorem eq_mergeSort_of_pairwise_lt (hs : s.Pairwise (fun a b => cmp a b = .lt)) (hp : s.Perm l) :
    s = l.mergeSort (fun a b => cmp a b != .gt) := by
  have hsort : s.Perm (l.mergeSort fun a b => cmp a b != .gt) :=
    hp.trans (List.mergeSort_perm l _).symm
  have hs' : s.Pairwise (fun a b => cmp a b ≠ .gt) := hs.imp fun {a b} hlt hgt => by
    rw [hlt] at hgt
    cases hgt
  refine List.Perm.eq_of_pairwise ?_ hs' (pairwise_ne_gt_mergeSort l) hsort
  intro a b ha hb hab hba
  refine eq_of_pairwise_lt hs ha (hsort.mem_iff.2 hb) ?_
  -- neither stands before the other
  cases hc : cmp a b with
  | lt => exact absurd (Std.OrientedCmp.gt_of_lt hc) hba
  | eq => rfl
  | gt => exact absurd hc hab

end Pitwall
