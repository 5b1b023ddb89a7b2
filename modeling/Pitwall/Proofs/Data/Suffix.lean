import Mathlib.Data.List.DropRight

/-!
# Suffixes — the last entries of a list

The last `n` entries of a list are `l.drop (l.length - n)`, or `l.rtake n` for short. They are what
a test leaves of the list if they pass and no more than `n` entries do (**`filter_eq_last`**). The
last entries of a part at the end are among the last entries of the whole, and one entry that is put
into a list pushes out one of the last ones at most. Taking the front off a list for as long as its
entries pass a test takes off all that pass exactly if none of them stands behind one that does not
(**`dropWhile_eq_filter_iff`**).
-/

namespace Pitwall

variable {α : Type} {l : List α} {p : α → Bool}

/-- The last entries of a part at the end are among the last entries. -/
theorem last_suffix_last {s l : List α} (h : s <:+ l) (n : Nat) :
    s.drop (s.length - n) <:+ l.drop (l.length - n) := by
  refine List.suffix_of_suffix_length_le ((List.drop_suffix _ _).trans h) (List.drop_suffix _ _) ?_
  have hle : s.length ≤ l.length := h.length_le
  rw [List.length_drop, List.length_drop]
  omega

/-- Of the front of a list, only its end matters to the end of the whole. -/
theorem rtake_rtake_append (xs ys : List α) (n : Nat) :
    (xs.rtake n ++ ys).rtake n = (xs ++ ys).rtake n := by
  simp only [List.rtake_eq_reverse_take_reverse, List.reverse_append, List.reverse_reverse,
    List.take_append, List.take_take, Nat.min_eq_left (Nat.sub_le _ _)]

/-- All of a list that is no longer than asked for is at its end. -/
theorem rtake_of_length_le {n : Nat} (h : l.length ≤ n) : l.rtake n = l := by
  rw [List.rtake, Nat.sub_eq_zero_of_le h, List.drop_zero]

/-- One of the last entries was one of them before a new entry was put in, or is the new one. -/
theorem mem_last_insert {before after : List α} {x e : α} {n : Nat}
    (h : e ∈ (before ++ x :: after).drop ((before ++ x :: after).length - n)) :
    e = x ∨ e ∈ (before ++ after).drop ((before ++ after).length - n) := by
  have hdrop : ∀ (before : List α) (k : Nat), e ∈ (before ++ x :: after).drop (k + 1) →
      e = x ∨ e ∈ (before ++ after).drop k := by
    intro before
    induction before with
    | nil => exact fun k he => Or.inr he
    | cons b before ih =>
        intro k he
        cases k with
        | zero =>
            have hmem : e ∈ before ++ x :: after := he
            simp only [List.mem_append, List.mem_cons] at hmem
            simp only [List.drop_zero, List.cons_append, List.mem_cons, List.mem_append]
            rcases hmem with he | he | he
            · exact Or.inr (Or.inr (Or.inl he))
            · exact Or.inl he
            · exact Or.inr (Or.inr (Or.inr he))
        | succ k => exact ih k he
  have hlength : (before ++ x :: after).length = (before ++ after).length + 1 := by
    rw [List.length_append, List.length_append, List.length_cons, Nat.add_assoc]
  rw [hlength] at h
  by_cases hn : n ≤ (before ++ after).length
  · rw [Nat.sub_add_comm hn] at h
    exact hdrop before _ h
  · -- everything is among the last entries
    have hzero : (before ++ after).length - n = 0 := by omega
    have hzero' : (before ++ after).length + 1 - n = 0 := by omega
    rw [hzero'] at h
    rw [hzero]
    simp only [List.drop_zero, List.mem_append, List.mem_cons] at h ⊢
    rcases h with he | he | he
    · exact Or.inr (Or.inl he)
    · exact Or.inl he
    · exact Or.inr (Or.inr he)

/-- If every entry behind one that passes a test passes it as well, those that pass stand at the
end. -/
theorem filter_suffix (h : l.Pairwise (fun a b => p a = true → p b = true)) : l.filter p <:+ l := by
  induction l with
  | nil => exact List.suffix_refl _
  | cons a l ih =>
      rw [List.pairwise_cons] at h
      by_cases ha : p a = true
      · have hall : l.filter p = l := List.filter_eq_self.2 fun b hb => h.1 b hb ha
        have hkept : (a :: l).filter p = a :: l := by rw [List.filter_cons_of_pos ha, hall]
        exact ⟨[], hkept⟩
      · rw [List.filter_cons_of_neg ha]
        exact (ih h.2).trans (List.suffix_cons _ _)

/-- **TAKING THE FRONT OFF** leaves just the entries that fail a test if and only if every entry
before one that passes passes it as well. -/
theorem dropWhile_eq_filter_iff :
    l.dropWhile p = l.filter (fun a => !p a) ↔
      l.Pairwise (fun a b => p b = true → p a = true) := by
  induction l with
  | nil => exact iff_of_true rfl .nil
  | cons a l ih =>
      rw [List.pairwise_cons]
      by_cases ha : p a = true
      · rw [List.dropWhile_cons_of_pos ha, List.filter_cons_of_neg (by simp [ha]), ih]
        exact (and_iff_right fun _ _ _ => ha).symm
      · -- the front is empty, so nothing behind it may pass
        rw [List.dropWhile_cons_of_neg ha, List.filter_cons_of_pos (by simp [ha]),
          List.cons.injEq, eq_comm (a := l), List.filter_eq_self]
        constructor
        · rintro ⟨-, hnone⟩
          have hfail : ∀ b ∈ l, ¬ p b = true := fun b hb => by simpa using hnone b hb
          exact ⟨fun b hb hpass => absurd hpass (hfail b hb),
            List.pairwise_of_forall_mem_list fun b _ c hc hpass => absurd hpass (hfail c hc)⟩
        · rintro ⟨hfront, -⟩
          exact ⟨rfl, fun b hb => by simpa using mt (hfront b hb) ha⟩

/-- **THE LAST ENTRIES**: if they pass a test, and no more entries than they are do, then exactly
they do. -/
theorem filter_eq_last {n : Nat} (hlast : ∀ a ∈ l.drop (l.length - n), p a = true)
    (hmost : (l.filter p).length ≤ n) : l.filter p = l.drop (l.length - n) := by
  have hsplit : l.filter p = (l.take (l.length - n)).filter p ++ l.drop (l.length - n) := by
    conv => lhs; rw [← List.take_append_drop (l.length - n) l]
    rw [List.filter_append, List.filter_eq_self.2 hlast]
  have hnone : (l.take (l.length - n)).filter p = [] := by
    by_cases hn : n ≤ l.length
    · -- the last entries are as many as pass
      have hlength := congrArg List.length hsplit
      rw [List.length_append, List.length_drop] at hlength
      exact List.eq_nil_of_length_eq_zero (by omega)
    · have hzero : l.length - n = 0 := by omega
      rw [hzero]
      rfl
  rw [hsplit, hnone, List.nil_append]

end Pitwall
