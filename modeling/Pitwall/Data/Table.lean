import Pitwall.Data.Entries

/-!
# Tables — values under keys in ascending order

A `Table κ ν` holds one value per key and keeps its entries in ascending order of the
keys, so that two tables with the same values are the same table.

* **`insert`**, **`erase`** and **`modify`** keep the order; that is the proof field of the
  result.
* **`get?_insert`**, **`get?_erase`**: looking up after a change answers what was changed and
  nothing else.
-/

namespace Pitwall

/-- One value per key, in ascending order of the keys. -/
structure Table (κ ν : Type) [Ord κ] where
  /-- Keys and their values, least key first. -/
  entries : List (κ × ν)
  ascending : (entries.map Prod.fst).Pairwise (fun a b => compare a b = .lt)

namespace Table

variable {κ ν : Type} [Ord κ]

/-- The keys, least first. -/
def keys (t : Table κ ν) : List κ := t.entries.map Prod.fst

/-- The values, by ascending key. -/
def values (t : Table κ ν) : List ν := t.entries.map Prod.snd

def empty : Table κ ν := ⟨[], List.Pairwise.nil⟩

instance : Inhabited (Table κ ν) := ⟨empty⟩
instance : EmptyCollection (Table κ ν) := ⟨empty⟩

def size (t : Table κ ν) : Nat := t.entries.length

/-- Whether nothing is held. -/
def isEmpty (t : Table κ ν) : Bool := t.entries.isEmpty

theorem ext {s t : Table κ ν} (h : s.entries = t.entries) : s = t := by
  cases s; cases t; cases h; rfl

/-- Two tables are equal when they hold equal values under the same keys. -/
instance [BEq κ] [BEq ν] : BEq (Table κ ν) := ⟨fun s t => s.entries == t.entries⟩

instance [DecidableEq κ] [DecidableEq ν] : DecidableEq (Table κ ν) := fun s t =>
  decidable_of_iff (s.entries = t.entries) ⟨ext, fun h => h ▸ rfl⟩

/-- Changes every value, keys unchanged. -/
def mapValues {μ : Type} (t : Table κ ν) (f : κ → ν → μ) : Table κ μ where
  entries := t.entries.map (fun e => (e.1, f e.1 e.2))
  ascending := by simpa [List.map_map, Function.comp_def] using t.ascending

/-- Keeps the entries that pass a test. -/
def filter (t : Table κ ν) (p : κ → ν → Bool) : Table κ ν where
  entries := t.entries.filter (fun e => p e.1 e.2)
  ascending := t.ascending.sublist (List.filter_sublist.map Prod.fst)

/-! ## Inserting -/

/-- Puts an entry at its place in a list of entries; an entry with the same key gives way. -/
def insertEntry (k : κ) (v : ν) : List (κ × ν) → List (κ × ν)
  | [] => [(k, v)]
  | e :: es =>
    match compare k e.1 with
    | .lt => (k, v) :: e :: es
    | .eq => (k, v) :: es
    | .gt => e :: insertEntry k v es

/-- The keys after an insertion are the old ones and the new one. -/
theorem mem_keys_insertEntry {k : κ} {v : ν} {a : κ} {es : List (κ × ν)}
    (h : a ∈ (insertEntry k v es).map Prod.fst) : a = k ∨ a ∈ es.map Prod.fst := by
  induction es with
  | nil => simpa [insertEntry] using h
  | cons e es ih =>
    simp only [insertEntry] at h
    split at h
    · simpa using h
    · simp only [List.map_cons, List.mem_cons] at h ⊢
      exact h.elim Or.inl (fun h => Or.inr (Or.inr h))
    · simp only [List.map_cons, List.mem_cons] at h ⊢
      rcases h with h | h
      · exact Or.inr (Or.inl h)
      · exact (ih h).elim Or.inl (fun h => Or.inr (Or.inr h))

theorem insertEntry_ascending [Std.TransOrd κ] [Std.LawfulEqOrd κ] (k : κ) (v : ν)
    {es : List (κ × ν)} (h : (es.map Prod.fst).Pairwise (fun a b => compare a b = .lt)) :
    ((insertEntry k v es).map Prod.fst).Pairwise (fun a b => compare a b = .lt) := by
  induction es with
  | nil => simp [insertEntry]
  | cons e es ih =>
    simp only [List.map_cons, List.pairwise_cons] at h
    simp only [insertEntry]
    split
    · next hlt =>
      simp only [List.map_cons, List.pairwise_cons, List.mem_cons]
      refine ⟨?_, h⟩
      rintro a (rfl | ha)
      · exact hlt
      · exact Std.TransCmp.lt_trans hlt (h.1 a ha)
    · next heq =>
      have hk : k = e.1 := Std.LawfulEqOrd.eq_of_compare heq
      simp only [List.map_cons, List.pairwise_cons]
      exact ⟨fun a ha => hk ▸ h.1 a ha, h.2⟩
    · next hgt =>
      simp only [List.map_cons, List.pairwise_cons]
      refine ⟨fun a ha => ?_, ih h.2⟩
      rcases mem_keys_insertEntry ha with rfl | ha
      · exact Std.OrientedCmp.lt_of_gt hgt
      · exact h.1 a ha

/-- Sets the value under a key. -/
def insert [Std.TransOrd κ] [Std.LawfulEqOrd κ] (t : Table κ ν) (k : κ) (v : ν) :
    Table κ ν where
  entries := insertEntry k v t.entries
  ascending := insertEntry_ascending k v t.ascending

/-- Inserts the given entries one after the other: the last value of a key counts. -/
def ofList [Std.TransOrd κ] [Std.LawfulEqOrd κ] (es : List (κ × ν)) : Table κ ν :=
  es.foldl (fun t e => t.insert e.1 e.2) empty

/-! ## Looking up -/

variable [DecidableEq κ]

/-- The value under a key. -/
def get? (t : Table κ ν) (k : κ) : Option ν := Entries.value? k t.entries

/-- Whether a key is held. -/
def contains (t : Table κ ν) (k : κ) : Bool := decide (k ∈ t.keys)

def erase (t : Table κ ν) (k : κ) : Table κ ν := t.filter (fun k' _ => k' ≠ k)

/-- Changes the value under a key, if it is held. -/
def modify (t : Table κ ν) (k : κ) (f : ν → ν) : Table κ ν :=
  t.mapValues (fun k' v => if k' = k then f v else v)

@[simp] theorem get?_empty (k : κ) : (empty : Table κ ν).get? k = none := rfl

theorem value?_insertEntry [Std.LawfulEqOrd κ] (k a : κ) (v : ν) (es : List (κ × ν)) :
    Entries.value? a (insertEntry k v es) = if k = a then some v else Entries.value? a es := by
  induction es with
  | nil => rfl
  | cons e es ih =>
    simp only [insertEntry]
    split
    · simp [Entries.value?_cons]
    · next heq =>
      have hk : k = e.1 := Std.LawfulEqOrd.eq_of_compare heq
      by_cases h : k = a
      · simp [Entries.value?_cons, h]
      · simp [Entries.value?_cons, h, hk ▸ h]
    · next hgt =>
      have hne : k ≠ e.1 := by
        intro hk
        rw [hk, Std.ReflOrd.compare_self] at hgt
        cases hgt
      rw [Entries.value?_cons, ih, Entries.value?_cons]
      by_cases h : k = a
      · have : ¬ e.1 = a := fun he => hne (h.trans he.symm)
        simp [h, this]
      · simp [h]

/-- After an insertion the new key has the new value and every other key its old one. -/
theorem get?_insert [Std.TransOrd κ] [Std.LawfulEqOrd κ] (t : Table κ ν) (k a : κ) (v : ν) :
    (t.insert k v).get? a = if k = a then some v else t.get? a :=
  value?_insertEntry k a v t.entries

/-- After a removal the key has no value and every other key its old one. -/
theorem get?_erase (t : Table κ ν) (k a : κ) :
    (t.erase k).get? a = if a = k then none else t.get? a :=
  Entries.value?_filter_ne k a t.entries

end Table

end Pitwall
