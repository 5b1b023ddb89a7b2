/-!
# Entries — lists of keys with values

The common ground of keyed lists and tables: looking up the first entry of a key, and what
filtering, changing and appending entries do to that.
-/

namespace Pitwall.Entries

variable {κ ν : Type} [DecidableEq κ]

/-- The value of the first entry with the key. -/
def value? (k : κ) : List (κ × ν) → Option ν
  | [] => none
  | e :: es => if e.1 = k then some e.2 else value? k es

@[simp] theorem value?_nil (k : κ) : value? k ([] : List (κ × ν)) = none := rfl

theorem value?_cons (k : κ) (e : κ × ν) (es : List (κ × ν)) :
    value? k (e :: es) = if e.1 = k then some e.2 else value? k es := rfl

/-- Only a key that stands in the list has a value. -/
theorem value?_eq_none_iff {k : κ} {es : List (κ × ν)} :
    value? k es = none ↔ k ∉ es.map Prod.fst := by
  induction es with
  | nil => simp
  | cons e es ih =>
    by_cases h : e.1 = k
    · simp [value?_cons, h]
    · simp [value?_cons, h, ih, Ne.symm h]

/-- What is found under a key is one of the entries. -/
theorem mem_of_value?_eq_some {k : κ} {v : ν} {es : List (κ × ν)} (h : value? k es = some v) :
    (k, v) ∈ es := by
  induction es with
  | nil => simp at h
  | cons e es ih =>
    rw [value?_cons] at h
    split at h
    · next hk =>
      have hv := Option.some.inj h
      exact List.mem_cons.2 (Or.inl (by rw [← hk, ← hv]))
    · exact List.mem_cons_of_mem _ (ih h)

/-- With distinct keys every entry is found under its key. -/
theorem value?_eq_some_of_mem {k : κ} {v : ν} {es : List (κ × ν)}
    (hd : (es.map Prod.fst).Nodup) (h : (k, v) ∈ es) : value? k es = some v := by
  induction es with
  | nil => cases h
  | cons e es ih =>
    rw [List.map_cons, List.nodup_cons] at hd
    rw [value?_cons]
    rcases List.mem_cons.1 h with h | h
    · rw [← h]; simp
    · have hk : e.1 ≠ k := fun hk => hd.1 (hk ▸ List.mem_map_of_mem h)
      rw [if_neg hk, ih hd.2 h]

theorem value?_append (k : κ) (es fs : List (κ × ν)) :
    value? k (es ++ fs) = (value? k es).or (value? k fs) := by
  induction es with
  | nil => rfl
  | cons e es ih =>
    rw [List.cons_append, value?_cons, value?_cons]
    split <;> simp_all

/-- Leaving out a key hides exactly that key. -/
theorem value?_filter_ne (k a : κ) (es : List (κ × ν)) :
    value? a (es.filter (fun e => e.1 ≠ k)) = if a = k then none else value? a es := by
  induction es with
  | nil => simp
  | cons e es ih =>
    rw [List.filter_cons]
    by_cases hk : e.1 = k
    · by_cases ha : a = k
      · simpa [hk, ha] using ih
      · have : ¬ k = a := fun h => ha h.symm
        simpa [hk, ha, value?_cons, this] using ih
    · by_cases ha : e.1 = a
      · have : ¬ a = k := ha ▸ hk
        simp [ha, value?_cons, this]
      · simpa [hk, value?_cons, ha] using ih

/-- Changing the values under one key changes what is found under it and nothing else. -/
theorem value?_map_at (k a : κ) (f : ν → ν) (es : List (κ × ν)) :
    value? a (es.map (fun e => if e.1 = k then (e.1, f e.2) else e)) =
      if a = k then (value? a es).map f else value? a es := by
  induction es with
  | nil => simp
  | cons e es ih =>
    rw [List.map_cons, value?_cons, ih, value?_cons]
    by_cases hk : e.1 = k
    · by_cases ha : a = k
      · simp [hk, ha]
      · have : ¬ k = a := fun h => ha h.symm
        simp [hk, ha, this]
    · by_cases ha : e.1 = a
      · have : ¬ a = k := ha ▸ hk
        simp [ha, this]
      · simp [hk, ha]

end Pitwall.Entries
