import Pitwall.Data.Entries

/-!
# Keyed lists — values under distinct keys, in an order of their own

A `Keyed κ ν` holds one value per key and remembers in which order its entries stand. The
order is data: it is a display order, or the order in which a map hands out its entries.

* **`insert`** overwrites in place and appends a new key at the end, **`erase`** leaves the
  others where they are, **`modify`** keeps every key where it is.
* **`arrange`** brings given keys to the front and keeps the rest in their old order.

Each operation is a plain list operation on `entries`; that the keys stay distinct is
proved beside it, and `keys_…` says what becomes of the order.
-/

namespace Pitwall

/-- One value per key, in an order that belongs to the value. -/
structure Keyed (κ ν : Type) where
  /-- Keys and their values, first to last. -/
  entries : List (κ × ν)
  distinct : (entries.map Prod.fst).Nodup

namespace Keyed

variable {κ ν : Type}

/-- The keys, first to last. -/
def keys (m : Keyed κ ν) : List κ := m.entries.map Prod.fst

/-- The values, first to last. -/
def values (m : Keyed κ ν) : List ν := m.entries.map Prod.snd

def empty : Keyed κ ν := ⟨[], List.nodup_nil⟩

instance : Inhabited (Keyed κ ν) := ⟨empty⟩
instance : EmptyCollection (Keyed κ ν) := ⟨empty⟩

def size (m : Keyed κ ν) : Nat := m.entries.length

/-- Whether nothing is held. -/
def isEmpty (m : Keyed κ ν) : Bool := m.entries.isEmpty

theorem ext {m n : Keyed κ ν} (h : m.entries = n.entries) : m = n := by
  cases m; cases n; cases h; rfl

theorem nodup_keys (m : Keyed κ ν) : m.keys.Nodup := m.distinct

/-- Two keyed lists are equal when they hold the same entries in the same order. -/
instance [BEq κ] [BEq ν] : BEq (Keyed κ ν) := ⟨fun m n => m.entries == n.entries⟩

instance [DecidableEq κ] [DecidableEq ν] : DecidableEq (Keyed κ ν) := fun m n =>
  decidable_of_iff (m.entries = n.entries) ⟨ext, fun h => h ▸ rfl⟩

variable [DecidableEq κ]

/-- The value under a key. -/
def get? (m : Keyed κ ν) (k : κ) : Option ν := Entries.value? k m.entries

/-- Whether a key is held. -/
def contains (m : Keyed κ ν) (k : κ) : Bool := decide (k ∈ m.keys)

/-! ## Removing and changing -/

/-- Removes a key; the others stay where they are. -/
def erase (m : Keyed κ ν) (k : κ) : Keyed κ ν where
  entries := m.entries.filter (fun e => e.1 ≠ k)
  distinct := (List.filter_sublist.map Prod.fst).nodup m.distinct

/-- Changes the value under a key, if it is held. -/
def modify (m : Keyed κ ν) (k : κ) (f : ν → ν) : Keyed κ ν where
  entries := m.entries.map (fun e => if e.1 = k then (e.1, f e.2) else e)
  distinct := by
    have h : ∀ e : κ × ν, (if e.1 = k then (e.1, f e.2) else e).1 = e.1 := by
      intro e; split <;> rfl
    simpa [List.map_map, Function.comp_def, h] using m.distinct

/-- Overwrites the value of a key where it stands, or appends the key at the end. -/
def insert (m : Keyed κ ν) (k : κ) (v : ν) : Keyed κ ν :=
  if h : k ∈ m.keys then m.modify k (fun _ => v)
  else
    { entries := m.entries ++ [(k, v)]
      distinct := by
        rw [List.map_append, List.nodup_append]
        refine ⟨m.distinct, by simp, ?_⟩
        intro a ha b hb
        simp only [List.map_cons, List.map_nil, List.mem_singleton] at hb
        exact fun hab => h (by rw [← hb, ← hab]; exact ha) }

/-- Inserts the given entries one after the other: of two with the same key the later one
counts, at the place of the earlier. -/
def ofList (es : List (κ × ν)) : Keyed κ ν := es.foldl (fun m e => m.insert e.1 e.2) empty

/-! ## Arranging -/

/-- The keys of `order` that are held, each at its first occurrence. -/
def wanted (m : Keyed κ ν) (order : List κ) : List κ :=
  order.foldl (fun seen k => if m.contains k && !seen.contains k then seen ++ [k] else seen) []

theorem wanted_nodup (m : Keyed κ ν) (order : List κ) : (m.wanted order).Nodup := by
  suffices h : ∀ (l seen : List κ), seen.Nodup →
      (l.foldl (fun seen k => if m.contains k && !seen.contains k then seen ++ [k] else seen)
        seen).Nodup from h order [] List.nodup_nil
  intro l
  induction l with
  | nil => exact fun _ h => h
  | cons k l ih =>
    intro seen hs
    rw [List.foldl_cons]
    apply ih
    split
    · next hc =>
      rw [List.nodup_append]
      refine ⟨hs, by simp, ?_⟩
      intro a ha b hb hab
      simp only [List.mem_singleton] at hb
      simp only [Bool.and_eq_true, Bool.not_eq_true', List.contains_eq_mem,
        decide_eq_false_iff_not] at hc
      exact hc.2 (hb ▸ hab ▸ ha)
    · exact hs

/-- An entry that was looked up stands under the key it was looked up by. -/
theorem map_fst_filterMap_get? (m : Keyed κ ν) (l : List κ) :
    (l.filterMap (fun k => (m.get? k).map (fun v => (k, v)))).map Prod.fst =
      l.filter (fun k => (m.get? k).isSome) := by
  induction l with
  | nil => rfl
  | cons k l ih =>
    rw [List.filterMap_cons, List.filter_cons]
    cases h : m.get? k with
    | none => simpa [h] using ih
    | some v => simpa [h] using ih

/-- Brings the held keys of `order` to the front, each at its first occurrence there; the
other keys follow in their old order. -/
def arrange (m : Keyed κ ν) (order : List κ) : Keyed κ ν where
  entries :=
    (m.wanted order).filterMap (fun k => (m.get? k).map (fun v => (k, v))) ++
      m.entries.filter (fun e => !(m.wanted order).contains e.1)
  distinct := by
    rw [List.map_append, List.nodup_append, map_fst_filterMap_get?]
    refine ⟨List.filter_sublist.nodup (m.wanted_nodup order),
      (List.filter_sublist.map Prod.fst).nodup m.distinct, ?_⟩
    intro a ha b hb hab
    obtain ⟨e, he, rfl⟩ := List.mem_map.1 hb
    have h1 := (List.mem_filter.1 ha).1
    have h2 := (List.mem_filter.1 he).2
    simp only [Bool.not_eq_true', List.contains_eq_mem, decide_eq_false_iff_not] at h2
    exact h2 (hab ▸ h1)

/-! ## What the operations do to the keys -/

omit [DecidableEq κ] in
@[simp] theorem keys_empty : (empty : Keyed κ ν).keys = [] := rfl

@[simp] theorem keys_modify (m : Keyed κ ν) (k : κ) (f : ν → ν) :
    (m.modify k f).keys = m.keys := by
  have h : ∀ e : κ × ν, (if e.1 = k then (e.1, f e.2) else e).1 = e.1 := by
    intro e; split <;> rfl
  simp [keys, modify, List.map_map, Function.comp_def, h]

theorem keys_erase (m : Keyed κ ν) (k : κ) :
    (m.erase k).keys = m.keys.filter (fun k' => k' ≠ k) := by
  simp only [keys, erase]
  exact (List.filter_map (p := fun k' => decide (k' ≠ k)) (f := Prod.fst)).symm

theorem keys_insert (m : Keyed κ ν) (k : κ) (v : ν) :
    (m.insert k v).keys = if k ∈ m.keys then m.keys else m.keys ++ [k] := by
  unfold insert
  split
  · simp
  · simp [keys]

/-! ## What the operations do to the values -/

@[simp] theorem get?_empty (k : κ) : (empty : Keyed κ ν).get? k = none := rfl

theorem get?_eq_none_iff {m : Keyed κ ν} {k : κ} : m.get? k = none ↔ k ∉ m.keys :=
  Entries.value?_eq_none_iff

theorem get?_erase (m : Keyed κ ν) (k a : κ) :
    (m.erase k).get? a = if a = k then none else m.get? a :=
  Entries.value?_filter_ne k a m.entries

theorem get?_modify (m : Keyed κ ν) (k a : κ) (f : ν → ν) :
    (m.modify k f).get? a = if a = k then (m.get? a).map f else m.get? a :=
  Entries.value?_map_at k a f m.entries

theorem get?_insert (m : Keyed κ ν) (k a : κ) (v : ν) :
    (m.insert k v).get? a = if a = k then some v else m.get? a := by
  unfold insert
  split
  · next h =>
    rw [get?_modify]
    split
    · next ha =>
      cases hg : m.get? a with
      | none => exact absurd (ha ▸ h) (get?_eq_none_iff.1 hg)
      | some w => rfl
    · rfl
  · next h =>
    simp only [get?, Entries.value?_append, Entries.value?_cons, Entries.value?_nil]
    by_cases ha : a = k
    · have : Entries.value? k m.entries = none := Entries.value?_eq_none_iff.2 h
      simp [ha, this]
    · have : ¬ k = a := fun h => ha h.symm
      simp [ha, this]

end Keyed

end Pitwall
