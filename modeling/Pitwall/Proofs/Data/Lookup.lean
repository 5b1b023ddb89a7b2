import Pitwall.Data.Keyed
import Pitwall.Data.Table

/-!
# Looking up — when two keyed lists or tables hold the same

What a keyed list or a table holds is what its lookups answer. For a keyed list the order comes
on top of that: **`Keyed.get?_arrange`** says that arranging moves entries and changes no
lookup. A table has no order of its own: **`Table.ext_get?`** says that two tables with the
same lookups are the same table, and **`Table.ofList_perm`** that a table does not tell in which
order its entries came.
-/

namespace Pitwall

namespace Entries

variable {κ ν : Type}

/-- Entries with distinct keys are distinct. -/
theorem nodup_of_keys {es : List (κ × ν)} (hd : (es.map Prod.fst).Nodup) : es.Nodup :=
  List.Pairwise.of_map Prod.fst (fun _ _ hne heq => hne (heq ▸ rfl)) hd

variable [DecidableEq κ]

/-- Under distinct keys, looking up finds exactly the entries. -/
theorem value?_eq_some_iff {k : κ} {v : ν} {es : List (κ × ν)}
    (hd : (es.map Prod.fst).Nodup) : value? k es = some v ↔ (k, v) ∈ es :=
  ⟨mem_of_value?_eq_some, value?_eq_some_of_mem hd⟩

/-- Under distinct keys, the order of the entries does not show. -/
theorem value?_perm {es fs : List (κ × ν)} (hp : es.Perm fs)
    (hd : (es.map Prod.fst).Nodup) (k : κ) : value? k es = value? k fs := by
  have hd' : (fs.map Prod.fst).Nodup := (hp.map Prod.fst).nodup_iff.1 hd
  refine Option.ext ?_
  intro v
  rw [value?_eq_some_iff hd, value?_eq_some_iff hd', hp.mem_iff]

/-- Among filtered entries a key is found if its entry passes. -/
theorem value?_filter {k : κ} {p : κ × ν → Bool} {es : List (κ × ν)}
    (hd : (es.map Prod.fst).Nodup) :
    value? k (es.filter p) = (value? k es).filter (fun v => p (k, v)) := by
  have hd' : ((es.filter p).map Prod.fst).Nodup := (List.filter_sublist.map Prod.fst).nodup hd
  refine Option.ext ?_
  intro v
  rw [value?_eq_some_iff hd', List.mem_filter, Option.filter_eq_some_iff,
    value?_eq_some_iff hd]

/-- Where values are changed under their keys, the changed value is found. -/
theorem value?_map {μ : Type} (k : κ) (f : κ → ν → μ) (es : List (κ × ν)) :
    value? k (es.map (fun e => (e.1, f e.1 e.2))) = (value? k es).map (f k) := by
  induction es with
  | nil => rfl
  | cons e es ih =>
      rw [List.map_cons, value?_cons, value?_cons, ih]
      by_cases hk : e.1 = k
      · rw [if_pos hk, if_pos hk, hk]
        rfl
      · rw [if_neg hk, if_neg hk]

end Entries

/-! ## Keyed lists -/

namespace Keyed

variable {κ ν : Type} [DecidableEq κ]

theorem get?_eq_some_iff {m : Keyed κ ν} {k : κ} {v : ν} :
    m.get? k = some v ↔ (k, v) ∈ m.entries :=
  Entries.value?_eq_some_iff m.distinct

/-- A key stands in the order exactly if it has a value. -/
theorem mem_keys_iff {m : Keyed κ ν} {k : κ} : k ∈ m.keys ↔ ∃ v, m.get? k = some v := by
  rw [← Option.ne_none_iff_exists', Ne, get?_eq_none_iff, Classical.not_not]

theorem contains_eq_isSome (m : Keyed κ ν) (k : κ) : m.contains k = (m.get? k).isSome := by
  rw [Bool.eq_iff_iff, contains, decide_eq_true_iff, mem_keys_iff, Option.isSome_iff_exists]

theorem contains_of_get? {m : Keyed κ ν} {k : κ} {v : ν} (h : m.get? k = some v) :
    m.contains k = true := by
  rw [contains_eq_isSome, h]
  rfl

theorem contains_insert (m : Keyed κ ν) (k a : κ) (v : ν) :
    (m.insert k v).contains a = (decide (a = k) || m.contains a) := by
  rw [contains_eq_isSome, contains_eq_isSome, get?_insert]
  by_cases h : a = k
  · simp [h]
  · simp [h]

theorem contains_erase (m : Keyed κ ν) (k a : κ) :
    (m.erase k).contains a = (decide (a ≠ k) && m.contains a) := by
  rw [contains_eq_isSome, contains_eq_isSome, get?_erase]
  by_cases h : a = k
  · simp [h]
  · simp [h]

@[simp] theorem contains_modify (m : Keyed κ ν) (k a : κ) (f : ν → ν) :
    (m.modify k f).contains a = m.contains a := by
  rw [contains, contains, keys_modify]

theorem mem_values_iff {m : Keyed κ ν} {v : ν} : v ∈ m.values ↔ ∃ k, m.get? k = some v := by
  simp only [values, List.mem_map, get?_eq_some_iff]
  constructor
  · rintro ⟨e, he, rfl⟩
    exact ⟨e.1, he⟩
  · rintro ⟨k, hk⟩
    exact ⟨(k, v), hk, rfl⟩

/-- Arranging keeps the entries. -/
theorem mem_entries_arrange {m : Keyed κ ν} {order : List κ} {k : κ} {v : ν} :
    (k, v) ∈ (m.arrange order).entries ↔ (k, v) ∈ m.entries := by
  have hfront : (k, v) ∈ (m.wanted order).filterMap (fun k => (m.get? k).map (fun v => (k, v))) ↔
      k ∈ m.wanted order ∧ (k, v) ∈ m.entries := by
    rw [List.mem_filterMap]
    constructor
    · rintro ⟨a, ha, hv⟩
      obtain ⟨w, hw, he⟩ := Option.map_eq_some_iff.1 hv
      cases he
      exact ⟨ha, get?_eq_some_iff.1 hw⟩
    · rintro ⟨hk, hv⟩
      exact ⟨k, hk, Option.map_eq_some_iff.2 ⟨v, get?_eq_some_iff.2 hv, rfl⟩⟩
  have hback : (k, v) ∈ m.entries.filter (fun e => !(m.wanted order).contains e.1) ↔
      (k, v) ∈ m.entries ∧ k ∉ m.wanted order := by
    simp [List.mem_filter]
  show (k, v) ∈ _ ++ _ ↔ _
  rw [List.mem_append, hfront, hback]
  by_cases hk : k ∈ m.wanted order
  · simp [hk]
  · simp [hk]

/-- Arranging changes no lookup. -/
theorem get?_arrange (m : Keyed κ ν) (order : List κ) (k : κ) :
    (m.arrange order).get? k = m.get? k := by
  refine Option.ext ?_
  intro v
  rw [get?_eq_some_iff, get?_eq_some_iff, mem_entries_arrange]

/-- An order of held keys, each named once, is wanted as it is. -/
theorem wanted_of_held {m : Keyed κ ν} {order : List κ} (hd : order.Nodup)
    (hheld : ∀ k ∈ order, k ∈ m.keys) : m.wanted order = order := by
  suffices hs : ∀ l seen : List κ, (seen ++ l).Nodup → (∀ k ∈ l, k ∈ m.keys) →
      l.foldl (fun seen k => if m.contains k && !seen.contains k then seen ++ [k] else seen)
        seen = seen ++ l from hs order [] hd hheld
  intro l
  induction l with
  | nil => exact fun seen _ _ => (List.append_nil seen).symm
  | cons k l ih =>
    intro seen hnew hl
    rw [List.append_cons] at hnew
    have hseen : k ∉ seen := by
      have hfront := (List.nodup_append.1 (List.nodup_append.1 hnew).1).2.2
      exact fun hk => hfront k hk k (List.mem_singleton_self k) rfl
    have hk : k ∈ m.keys := hl k List.mem_cons_self
    rw [List.foldl_cons, if_pos (by simp [contains, hk, hseen]),
      ih _ hnew fun a ha => hl a (List.mem_cons_of_mem _ ha), ← List.append_cons]

/-- Arranging by an order of all keys gives that order. -/
theorem keys_arrange {m : Keyed κ ν} {order : List κ} (h : order.Perm m.keys) :
    (m.arrange order).keys = order := by
  have hwanted : m.wanted order = order :=
    wanted_of_held (h.nodup_iff.2 m.nodup_keys) fun k hk => h.mem_iff.1 hk
  have hfront : order.filter (fun k => (m.get? k).isSome) = order := by
    refine List.filter_eq_self.2 fun k hk => ?_
    rw [← contains_eq_isSome, contains, decide_eq_true_iff]
    exact h.mem_iff.1 hk
  have hback : m.entries.filter (fun e => !order.contains e.1) = [] := by
    refine List.filter_eq_nil_iff.2 fun e he => ?_
    have hmem : e.1 ∈ order := h.mem_iff.2 (List.mem_map_of_mem he)
    simp [hmem]
  rw [keys, arrange, List.map_append, map_fst_filterMap_get?, hwanted, hfront, hback,
    List.map_nil, List.append_nil]

@[simp] theorem contains_arrange (m : Keyed κ ν) (order : List κ) (k : κ) :
    (m.arrange order).contains k = m.contains k := by
  rw [contains_eq_isSome, contains_eq_isSome, get?_arrange]

/-- The entries are the keys with what is found under them. -/
theorem map_get?_keys (m : Keyed κ ν) :
    m.keys.map (fun k => (k, m.get? k)) = m.entries.map (fun e => (e.1, some e.2)) := by
  rw [keys, List.map_map]
  refine List.map_congr_left fun e he => ?_
  rw [Function.comp_apply, get?_eq_some_iff.2 he]

/-- Two keyed lists with the same keys in the same order and the same values under them are the
same. -/
theorem ext_get? {m n : Keyed κ ν} (hkeys : m.keys = n.keys) (h : ∀ k, m.get? k = n.get? k) :
    m = n := by
  have hentries := m.map_get?_keys
  rw [hkeys, funext h, n.map_get?_keys] at hentries
  have hinj : ∀ e f : κ × ν, (e.1, some e.2) = (f.1, some f.2) → e = f := by
    rintro ⟨k, v⟩ ⟨l, w⟩ hef
    cases hef
    rfl
  exact ext ((List.map_inj_right hinj).1 hentries.symm)

/-- Arranging by the order that is there already changes nothing. -/
theorem arrange_keys (m : Keyed κ ν) : m.arrange m.keys = m :=
  ext_get? (keys_arrange (List.Perm.refl m.keys)) fun k => m.get?_arrange m.keys k

/-- Changes under different keys commute. -/
theorem modify_comm (m : Keyed κ ν) {k j : κ} (hkj : k ≠ j) (f g : ν → ν) :
    (m.modify k f).modify j g = (m.modify j g).modify k f := by
  refine ext_get? ?_ fun a => ?_
  · rw [keys_modify, keys_modify, keys_modify, keys_modify]
  · rw [get?_modify, get?_modify, get?_modify, get?_modify]
    by_cases hk : a = k
    · have hj : a ≠ j := hk ▸ hkj
      rw [if_pos hk, if_neg hj, if_neg hj, if_pos hk]
    · rw [if_neg hk, if_neg hk]

/-- What is found after inserting entries one by one is one of them. -/
theorem mem_of_get?_ofList {es : List (κ × ν)} {k : κ} {v : ν}
    (h : (ofList es).get? k = some v) : (k, v) ∈ es := by
  suffices hs : ∀ (es : List (κ × ν)) (m : Keyed κ ν),
      (es.foldl (fun m e => m.insert e.1 e.2) m).get? k = some v →
        m.get? k = some v ∨ (k, v) ∈ es from
    (hs es empty h).elim (fun h => nomatch h) id
  intro es
  induction es with
  | nil => exact fun m h => Or.inl h
  | cons e es ih =>
    intro m h
    rcases ih _ h with h | h
    · rw [get?_insert] at h
      split at h
      · next hk =>
        have hv : e.2 = v := Option.some.inj h
        refine Or.inr (List.mem_cons.2 (Or.inl ?_))
        rw [hk, ← hv]
      · exact Or.inl h
    · exact Or.inr (List.mem_cons_of_mem _ h)

/-- Entries with distinct keys are found after inserting them one by one. -/
theorem get?_ofList {es : List (κ × ν)} (hd : (es.map Prod.fst).Nodup) (k : κ) :
    (ofList es).get? k = Entries.value? k es := by
  suffices hs : ∀ (es : List (κ × ν)) (m : Keyed κ ν), (es.map Prod.fst).Nodup →
      (es.foldl (fun m e => m.insert e.1 e.2) m).get? k =
        (Entries.value? k es).or (m.get? k) by
    rw [ofList, hs es empty hd, get?_empty, Option.or_none]
  intro es
  induction es with
  | nil => exact fun m _ => rfl
  | cons e es ih =>
    intro m hd
    rw [List.map_cons, List.nodup_cons] at hd
    rw [List.foldl_cons, ih _ hd.2, get?_insert, Entries.value?_cons]
    by_cases hk : e.1 = k
    · have hnone : Entries.value? k es = none := Entries.value?_eq_none_iff.2 (hk ▸ hd.1)
      rw [hnone, if_pos hk.symm, if_pos hk]
      rfl
    · rw [if_neg hk, if_neg (fun h => hk h.symm)]

/-- Entries with distinct keys are held as they come. -/
theorem entries_ofList {es : List (κ × ν)} (hd : (es.map Prod.fst).Nodup) :
    (ofList es).entries = es := by
  suffices hs : ∀ (es : List (κ × ν)) (m : Keyed κ ν), ((m.entries ++ es).map Prod.fst).Nodup →
      (es.foldl (fun m e => m.insert e.1 e.2) m).entries = m.entries ++ es from hs es empty hd
  intro es
  induction es with
  | nil => exact fun m _ => (List.append_nil m.entries).symm
  | cons e es ih =>
    intro m hd
    rw [List.append_cons] at hd
    have hnew : e.1 ∉ m.keys := by
      rw [List.map_append, List.nodup_append, List.map_append, List.nodup_append] at hd
      exact fun hk => hd.1.2.2 e.1 hk e.1 (by simp) rfl
    have hinsert : (m.insert e.1 e.2).entries = m.entries ++ [e] := by rw [insert, dif_neg hnew]
    rw [List.foldl_cons, ih _ (hinsert ▸ hd), hinsert, ← List.append_cons]

/-- Every value is of a kind. -/
def All (m : Keyed κ ν) (P : ν → Prop) : Prop := ∀ k v, m.get? k = some v → P v

namespace All

variable {m : Keyed κ ν} {P Q : ν → Prop}

theorem empty : (Keyed.empty : Keyed κ ν).All P := fun _ _ h => nomatch h

theorem imp (h : m.All P) (hPQ : ∀ v, P v → Q v) : m.All Q := fun k v hv => hPQ v (h k v hv)

theorem insert (h : m.All P) (k : κ) {v : ν} (hv : P v) : (m.insert k v).All P := by
  intro a w hw
  rw [get?_insert] at hw
  split at hw
  · rw [← Option.some.inj hw]
    exact hv
  · exact h a w hw

theorem erase (h : m.All P) (k : κ) : (m.erase k).All P := by
  intro a w hw
  rw [get?_erase] at hw
  split at hw
  · cases hw
  · exact h a w hw

theorem modify (h : m.All P) {k : κ} {f : ν → ν} (hf : ∀ v, m.get? k = some v → P (f v)) :
    (m.modify k f).All P := by
  intro a w hw
  rw [get?_modify] at hw
  split at hw
  · next ha =>
    obtain ⟨v, hv, rfl⟩ := Option.map_eq_some_iff.1 hw
    exact hf v (ha ▸ hv)
  · exact h a w hw

theorem arrange (h : m.All P) (order : List κ) : (m.arrange order).All P := by
  intro a w hw
  rw [get?_arrange] at hw
  exact h a w hw

end All

/-- The same values under the same keys, in whatever orders. -/
def Agrees (m n : Keyed κ ν) : Prop := ∀ k, m.get? k = n.get? k

namespace Agrees

variable {m n : Keyed κ ν}

theorem insert (h : m.Agrees n) (k : κ) (v : ν) : (m.insert k v).Agrees (n.insert k v) := by
  intro a
  rw [get?_insert, get?_insert, h a]

theorem erase (h : m.Agrees n) (k : κ) : (m.erase k).Agrees (n.erase k) := by
  intro a
  rw [get?_erase, get?_erase, h a]

theorem modify (h : m.Agrees n) (k : κ) (f : ν → ν) : (m.modify k f).Agrees (n.modify k f) := by
  intro a
  rw [get?_modify, get?_modify, h a]

/-- The same keys are held. -/
theorem keys_perm (h : m.Agrees n) : m.keys.Perm n.keys := by
  refine (List.perm_ext_iff_of_nodup m.nodup_keys n.nodup_keys).2 fun k => ?_
  rw [mem_keys_iff, mem_keys_iff, h k]

theorem mem_values_iff (h : m.Agrees n) {v : ν} : v ∈ m.values ↔ v ∈ n.values := by
  simp only [Keyed.mem_values_iff, h _]

end Agrees

end Keyed

/-! ## Tables -/

namespace Table

variable {κ ν : Type} [Ord κ]

/-- An entry after an insertion was there before or is the new one. -/
theorem mem_insertEntry {k : κ} {v : ν} {e : κ × ν} {es : List (κ × ν)}
    (h : e ∈ insertEntry k v es) : e = (k, v) ∨ e ∈ es := by
  induction es with
  | nil => exact Or.inl (List.mem_singleton.1 h)
  | cons x es ih =>
      simp only [insertEntry] at h
      split at h
      · exact List.mem_cons.1 h
      · rcases List.mem_cons.1 h with h | h
        · exact Or.inl h
        · exact Or.inr (List.mem_cons_of_mem _ h)
      · rcases List.mem_cons.1 h with rfl | h
        · exact Or.inr List.mem_cons_self
        · rcases ih h with h | h
          · exact Or.inl h
          · exact Or.inr (List.mem_cons_of_mem _ h)

/-- What holds of every value, and of the one that is inserted, holds of every value afterwards. -/
theorem forall_values_insert [Std.TransOrd κ] [Std.LawfulEqOrd κ] {P : ν → Prop} {t : Table κ ν}
    (h : ∀ v ∈ t.values, P v) (k : κ) {v : ν} (hv : P v) : ∀ w ∈ (t.insert k v).values, P w := by
  intro w hw
  obtain ⟨e, he, rfl⟩ := List.mem_map.1 hw
  rcases mem_insertEntry he with rfl | he
  · exact hv
  · exact h e.2 (List.mem_map_of_mem he)

/-- An entry with a new key is put between two parts of the old entries. -/
theorem insertEntry_eq_append [Std.LawfulEqOrd κ] {k : κ} (v : ν) {es : List (κ × ν)}
    (h : k ∉ es.map Prod.fst) : ∃ p s, es = p ++ s ∧ insertEntry k v es = p ++ (k, v) :: s := by
  induction es with
  | nil => exact ⟨[], [], rfl, rfl⟩
  | cons e es ih =>
      simp only [List.map_cons, List.mem_cons, not_or] at h
      simp only [insertEntry]
      split
      · exact ⟨[], e :: es, rfl, rfl⟩
      · next heq => exact absurd (Std.LawfulEqOrd.eq_of_compare heq) h.1
      · obtain ⟨p, s, rfl, hins⟩ := ih h.2
        exact ⟨e :: p, s, rfl, by rw [hins, List.cons_append]⟩

theorem mem_foldl_insertEntry {e : κ × ν} {es sorted : List (κ × ν)}
    (h : e ∈ es.foldl (fun sorted e => insertEntry e.1 e.2 sorted) sorted) :
    e ∈ sorted ∨ e ∈ es := by
  induction es generalizing sorted with
  | nil => exact Or.inl h
  | cons x es ih =>
      rcases ih h with h | h
      · rcases mem_insertEntry h with rfl | h
        · exact Or.inr List.mem_cons_self
        · exact Or.inl h
      · exact Or.inr (List.mem_cons_of_mem _ h)

/-- What a table holds after inserting entries one by one is one of them. -/
theorem mem_of_mem_entries_ofList [Std.TransOrd κ] [Std.LawfulEqOrd κ] {e : κ × ν}
    {es : List (κ × ν)} (h : e ∈ (ofList es).entries) : e ∈ es := by
  have hfold : (ofList es).entries =
      es.foldl (fun sorted e => insertEntry e.1 e.2 sorted) [] :=
    (List.foldl_hom Table.entries fun _ _ => rfl).symm
  rw [hfold] at h
  exact (mem_foldl_insertEntry h).resolve_left List.not_mem_nil

/-- Ascending keys are distinct. -/
theorem nodup_keys [Std.ReflOrd κ] (t : Table κ ν) : t.keys.Nodup := by
  refine t.ascending.imp ?_
  intro a b h hab
  rw [hab, Std.ReflOrd.compare_self] at h
  cases h

variable [DecidableEq κ]

theorem get?_eq_some_iff [Std.ReflOrd κ] {t : Table κ ν} {k : κ} {v : ν} :
    t.get? k = some v ↔ (k, v) ∈ t.entries :=
  Entries.value?_eq_some_iff t.nodup_keys

theorem get?_eq_none_iff {t : Table κ ν} {k : κ} : t.get? k = none ↔ k ∉ t.keys :=
  Entries.value?_eq_none_iff

/-- A key is held exactly if it has a value. -/
theorem mem_keys_iff {t : Table κ ν} {k : κ} : k ∈ t.keys ↔ ∃ v, t.get? k = some v := by
  rw [← Option.ne_none_iff_exists', Ne, get?_eq_none_iff, Classical.not_not]

theorem mem_values_iff [Std.ReflOrd κ] {t : Table κ ν} {v : ν} :
    v ∈ t.values ↔ ∃ k, t.get? k = some v := by
  simp only [values, List.mem_map, get?_eq_some_iff]
  constructor
  · rintro ⟨e, he, rfl⟩
    exact ⟨e.1, he⟩
  · rintro ⟨k, hk⟩
    exact ⟨(k, v), hk, rfl⟩

theorem contains_eq_isSome (t : Table κ ν) (k : κ) : t.contains k = (t.get? k).isSome := by
  rw [Bool.eq_iff_iff, contains, decide_eq_true_iff, mem_keys_iff, Option.isSome_iff_exists]

/-- **EXTENSIONALITY**: two tables that answer every lookup alike are the same table. -/
theorem ext_get? [Std.TransOrd κ] {s t : Table κ ν} (h : ∀ k, s.get? k = t.get? k) : s = t := by
  have hs : s.entries.Nodup := Entries.nodup_of_keys s.nodup_keys
  have ht : t.entries.Nodup := Entries.nodup_of_keys t.nodup_keys
  have hmem : ∀ e, e ∈ s.entries ↔ e ∈ t.entries := by
    rintro ⟨k, v⟩
    rw [← get?_eq_some_iff, ← get?_eq_some_iff, h]
  have hp : s.entries.Perm t.entries := (List.perm_ext_iff_of_nodup hs ht).2 hmem
  have hs' : s.entries.Pairwise (fun a b => compare a.1 b.1 = .lt) :=
    List.pairwise_map.1 s.ascending
  have ht' : t.entries.Pairwise (fun a b => compare a.1 b.1 = .lt) :=
    List.pairwise_map.1 t.ascending
  refine Table.ext ?_
  refine hp.eq_of_pairwise ?_ hs' ht'
  -- of two entries, only one can stand before the other
  intro a b _ _ hab hba
  have : Ordering.lt = Ordering.gt := hab.symm.trans (Std.OrientedCmp.gt_of_lt hba)
  cases this

theorem get?_filter [Std.ReflOrd κ] (t : Table κ ν) (p : κ → ν → Bool) (k : κ) :
    (t.filter p).get? k = (t.get? k).filter (p k) :=
  Entries.value?_filter t.nodup_keys

theorem get?_modify (t : Table κ ν) (k a : κ) (f : ν → ν) :
    (t.modify k f).get? a = if a = k then (t.get? a).map f else t.get? a := by
  have hmap : (t.modify k f).get? a = (t.get? a).map (fun v => if a = k then f v else v) :=
    Entries.value?_map a (fun k' v => if k' = k then f v else v) t.entries
  rw [hmap]
  split
  · rfl
  · exact Option.map_id'

variable [Std.TransOrd κ] [Std.LawfulEqOrd κ]

/-- Inserting entries with distinct keys one by one makes each of them found. -/
theorem get?_ofList {es : List (κ × ν)} (hd : (es.map Prod.fst).Nodup) (k : κ) :
    (ofList es).get? k = Entries.value? k es := by
  suffices hs : ∀ (es : List (κ × ν)) (t : Table κ ν), (es.map Prod.fst).Nodup →
      (es.foldl (fun t e => t.insert e.1 e.2) t).get? k = (Entries.value? k es).or (t.get? k) by
    rw [ofList, hs es empty hd, get?_empty, Option.or_none]
  intro es
  induction es with
  | nil => exact fun t _ => rfl
  | cons e es ih =>
    intro t hd
    rw [List.map_cons, List.nodup_cons] at hd
    rw [List.foldl_cons, ih _ hd.2, get?_insert, Entries.value?_cons]
    by_cases hk : e.1 = k
    · have hnone : Entries.value? k es = none := Entries.value?_eq_none_iff.2 (hk ▸ hd.1)
      rw [hnone, if_pos hk, if_pos hk]
      rfl
    · rw [if_neg hk, if_neg hk]

/-- A table does not tell in which order its entries came. -/
theorem ofList_perm {es fs : List (κ × ν)} (hp : es.Perm fs) (hd : (es.map Prod.fst).Nodup) :
    (ofList es : Table κ ν) = ofList fs := by
  have hd' : (fs.map Prod.fst).Nodup := (hp.map Prod.fst).nodup_iff.1 hd
  refine ext_get? ?_
  intro k
  rw [get?_ofList hd, get?_ofList hd', Entries.value?_perm hp hd]

/-- A table is made of its entries. -/
theorem ofList_entries (t : Table κ ν) : ofList t.entries = t := by
  refine ext_get? fun k => ?_
  rw [get?_ofList t.nodup_keys]
  rfl

/-- A table of entries with distinct keys holds just these. -/
theorem entries_ofList_perm {es : List (κ × ν)} (hd : (es.map Prod.fst).Nodup) :
    (ofList es : Table κ ν).entries.Perm es := by
  have hd' : ((ofList es : Table κ ν).entries.map Prod.fst).Nodup := (ofList es).nodup_keys
  refine (List.perm_ext_iff_of_nodup (Entries.nodup_of_keys hd') (Entries.nodup_of_keys hd)).2 ?_
  rintro ⟨k, v⟩
  rw [← Table.get?_eq_some_iff, get?_ofList hd, Entries.value?_eq_some_iff hd]

/-- Of the keys that are kept, an insertion shows; of the others it does not. -/
theorem filter_insert (t : Table κ ν) (k : κ) (v : ν) (q : κ → Bool) :
    (t.insert k v).filter (fun k _ => q k) =
      if q k then (t.filter fun k _ => q k).insert k v else t.filter fun k _ => q k := by
  refine ext_get? fun a => ?_
  rw [get?_filter, get?_insert]
  by_cases hk : k = a
  · subst hk
    cases hq : q k with
    | true => simp [get?_insert]
    | false =>
        have hnone (o : Option ν) : o.filter (fun _ => false) = none := by cases o <;> rfl
        simp [get?_filter, hq, hnone]
  · cases q k <;> simp [get?_filter, get?_insert, hk]

/-- Keeping some of the keys of a table is making it of the entries with these keys. -/
theorem filter_ofList (es : List (κ × ν)) (q : κ → Bool) :
    (ofList es).filter (fun k _ => q k) = ofList (es.filter fun e => q e.1) := by
  suffices hs : ∀ (es : List (κ × ν)) (t : Table κ ν),
      (es.foldl (fun t e => t.insert e.1 e.2) t).filter (fun k _ => q k) =
        (es.filter fun e => q e.1).foldl (fun t e => t.insert e.1 e.2)
          (t.filter fun k _ => q k) from hs es empty
  intro es
  induction es with
  | nil => exact fun t => rfl
  | cons e es ih =>
    intro t
    rw [List.foldl_cons, ih, filter_insert, List.filter_cons]
    by_cases hq : q e.1
    · rw [if_pos hq, if_pos hq, List.foldl_cons]
    · rw [if_neg hq, if_neg hq]

end Table

end Pitwall
