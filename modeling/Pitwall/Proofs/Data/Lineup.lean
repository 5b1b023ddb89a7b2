import Pitwall.Driver.Basic
import Pitwall.Proofs.Data.Lookup

/-!
# Lineups — an order kept beside the values

A keyed list holds values and their order in one. They can be held apart as well, as a **`Lineup`**:
a table of the values and a list of the keys, each kept up to date by hand. The two do not drift
apart: a lineup shows what a keyed list shows that goes through the same changes
(**`Lineup.Shows.step`**), so its order names every key that is held, once, and no other. What a
change makes of the order can be told from the order alone (**`Change.reorder`**).
**`Lineup.order_of_run`** puts this together for all sequences of changes.
-/

namespace Pitwall

/-- What may be done to values under keys in an order. -/
inductive Change (κ ν : Type) where
  /-- A value is set. -/
  | insert (k : κ) (v : ν)
  /-- A value is taken out. -/
  | remove (k : κ)
  /-- A value is changed where it stands. -/
  | modify (k : κ) (f : ν → ν)
  /-- An order is wished for. -/
  | setOrder (wish : List κ)

/-- What is answered to a change. -/
inductive Answer (ν : Type) where
  /-- The value that was held before. -/
  | held (v : Option ν)
  /-- Whether the order is another one. -/
  | moved (b : Bool)
  deriving DecidableEq

/-! ## Joining keys one after the other -/

section Joining

variable {κ : Type} [DecidableEq κ]

/-- Joins those keys to a list that are wanted and not in it yet. -/
def joinKeys (wanted : κ → Bool) (seen keys : List κ) : List κ :=
  keys.foldl (fun seen k => if wanted k && !seen.contains k then seen ++ [k] else seen) seen

/-- They come behind it, each where it stands first. -/
theorem joinKeys_eq (wanted : κ → Bool) (seen keys : List κ) :
    joinKeys wanted seen keys =
      seen ++ (keys.filter (fun k => wanted k && !seen.contains k)).eraseDups := by
  induction keys generalizing seen with
  | nil => exact (List.append_nil seen).symm
  | cons k keys ih =>
      have hstep : joinKeys wanted seen (k :: keys) =
          joinKeys wanted (if wanted k && !seen.contains k then seen ++ [k] else seen) keys := rfl
      rw [hstep, ih, List.filter_cons]
      split
      · have hrest : keys.filter (fun a => wanted a && !(seen ++ [k]).contains a) =
            (keys.filter (fun a => wanted a && !seen.contains a)).filter (fun a => !a == k) := by
          rw [List.filter_filter]
          refine List.filter_congr fun a _ => ?_
          by_cases ha : a = k
          · simp [ha]
          · simp [ha]
        rw [hrest, List.eraseDups_cons, List.append_assoc, List.singleton_append]
      · rfl

/-- Distinct keys stay as they are. -/
theorem eraseDups_of_nodup {keys : List κ} (h : keys.Nodup) : keys.eraseDups = keys := by
  induction keys with
  | nil => rfl
  | cons k keys ih =>
      obtain ⟨hk, hkeys⟩ := List.nodup_cons.1 h
      have hothers : keys.filter (fun a => !a == k) = keys := by
        refine List.filter_eq_self.2 fun a ha => ?_
        have hne : a ≠ k := fun heq => hk (heq ▸ ha)
        simp [hne]
      rw [List.eraseDups_cons, hothers, ih hkeys]

/-- What a wish makes of an order: of the keys wished for those count that are in the order, each
where it stands first, and the others follow as they stood. -/
def rearrange (wish order : List κ) : List κ :=
  (wish.filter (fun k => k ∈ order)).eraseDups ++ order.filter (fun k => k ∉ wish)

theorem mem_rearrange {wish order : List κ} {k : κ} : k ∈ rearrange wish order ↔ k ∈ order := by
  simp only [rearrange, List.mem_append, List.mem_eraseDups, List.mem_filter, decide_eq_true_eq]
  by_cases hk : k ∈ wish
  · simp [hk]
  · simp [hk]

/-- The same wish changes nothing the second time. -/
theorem rearrange_rearrange (wish order : List κ) :
    rearrange wish (rearrange wish order) = rearrange wish order := by
  have hfront : wish.filter (fun k => k ∈ rearrange wish order) =
      wish.filter (fun k => k ∈ order) := by
    refine List.filter_congr fun k _ => ?_
    rw [decide_eq_decide]
    exact mem_rearrange
  have hwished : (wish.filter (fun k => k ∈ order)).eraseDups.filter (fun k => k ∉ wish) = [] := by
    refine List.filter_eq_nil_iff.2 fun k hk => ?_
    have hmem := (List.mem_filter.1 (List.mem_eraseDups.1 hk)).1
    simp [hmem]
  have hback : (rearrange wish order).filter (fun k => k ∉ wish) =
      order.filter (fun k => k ∉ wish) := by
    rw [rearrange, List.filter_append, hwished, List.nil_append, List.filter_filter]
    simp
  rw [rearrange, hfront, hback]
  rfl

/-- Joining the keys of an order to those wished for rearranges it. -/
theorem joinKeys_joinKeys {held : κ → Bool} {order : List κ} (hd : order.Nodup)
    (hheld : ∀ k, held k = true ↔ k ∈ order) (wish : List κ) :
    joinKeys (fun _ => true) (joinKeys held [] wish) order = rearrange wish order := by
  have hfront : joinKeys held [] wish = (wish.filter (fun k => k ∈ order)).eraseDups := by
    rw [joinKeys_eq, List.nil_append]
    congr 1
    refine List.filter_congr fun k _ => ?_
    rw [Bool.eq_iff_iff]
    simp [hheld]
  have hback : order.filter (fun k => true && !(joinKeys held [] wish).contains k) =
      order.filter (fun k => k ∉ wish) := by
    refine List.filter_congr fun k hk => ?_
    rw [hfront, Bool.eq_iff_iff]
    simp [hk]
  rw [joinKeys_eq, hback, eraseDups_of_nodup (List.filter_sublist.nodup hd), hfront, rearrange]

end Joining

/-- What a change makes of the order. -/
def Change.reorder {κ ν : Type} [DecidableEq κ] : Change κ ν → List κ → List κ
  | insert k _, order => if k ∈ order then order else order ++ [k]
  | remove k, order => order.filter (fun a => a ≠ k)
  | modify _ _, order => order
  | setOrder wish, order => rearrange wish order

namespace Keyed

variable {κ ν : Type} [DecidableEq κ]

/-- Arranging by any keys. -/
theorem keys_arrange_eq (m : Keyed κ ν) (wish : List κ) :
    (m.arrange wish).keys = rearrange wish m.keys := by
  have hheld : ∀ k, m.contains k = true ↔ k ∈ m.keys := fun k => decide_eq_true_iff
  have hwanted : m.wanted wish = joinKeys m.contains [] wish := rfl
  have hfound : (m.wanted wish).filter (fun k => (m.get? k).isSome) = m.wanted wish := by
    refine List.filter_eq_self.2 fun k hk => ?_
    rw [hwanted, joinKeys_eq, List.nil_append, List.mem_eraseDups, List.mem_filter] at hk
    rw [← contains_eq_isSome]
    simpa using hk.2
  have hback : (m.entries.filter (fun e => !(m.wanted wish).contains e.1)).map Prod.fst =
      (m.keys.filter (fun k => true && !(m.wanted wish).contains k)).eraseDups := by
    rw [eraseDups_of_nodup (List.filter_sublist.nodup m.nodup_keys), keys, List.filter_map]
    rfl
  rw [keys, arrange, List.map_append, map_fst_filterMap_get?, hfound, hback, hwanted,
    ← joinKeys_eq, joinKeys_joinKeys m.nodup_keys hheld]

/-- A change, with what is answered. -/
def step (m : Keyed κ ν) : Change κ ν → Keyed κ ν × Answer ν
  | .insert k v => (m.insert k v, .held (m.get? k))
  | .remove k => (m.erase k, .held (m.get? k))
  | .modify k f => (m.modify k f, .held (m.get? k))
  | .setOrder wish => (m.arrange wish, .moved ((m.arrange wish).keys ≠ m.keys))

/-- Any number of changes. -/
def run (m : Keyed κ ν) (changes : List (Change κ ν)) : Keyed κ ν :=
  changes.foldl (fun m c => (m.step c).1) m

/-- **WHAT A CHANGE MAKES OF THE ORDER** can be told from the order alone. -/
theorem keys_step (m : Keyed κ ν) (c : Change κ ν) : (m.step c).1.keys = c.reorder m.keys := by
  cases c with
  | insert k v => exact m.keys_insert k v
  | remove k => exact m.keys_erase k
  | modify k f => exact m.keys_modify k f
  | setOrder wish => exact m.keys_arrange_eq wish

end Keyed

/-- Values under keys, and the order of the keys beside them. -/
structure Lineup (κ ν : Type) [Ord κ] where
  /-- The values. -/
  values : Table κ ν := .empty
  /-- The keys, first to last. -/
  order : List κ := []

namespace Lineup

variable {κ ν : Type} [Ord κ] [DecidableEq κ]

/-- The keys with their values, first to last. -/
def entries (l : Lineup κ ν) : List (κ × ν) :=
  l.order.filterMap (fun k => (l.values.get? k).map (fun v => (k, v)))

/-- Takes the value under a key out, and the key out of the order. -/
def remove (l : Lineup κ ν) (k : κ) : Lineup κ ν × Option ν :=
  match l.values.get? k with
  | none => (l, none)
  | some v => (⟨l.values.erase k, l.order.filter (fun a => a ≠ k)⟩, some v)

/-- Sets the order to the keys wished for that are held, with the other keys behind them. -/
def setOrder (l : Lineup κ ν) (wish : List κ) : Lineup κ ν × Bool :=
  let order := joinKeys (fun _ => true) (joinKeys l.values.contains [] wish) l.order
  if order = l.order then (l, false) else ({ l with order }, true)

variable [Std.TransOrd κ] [Std.LawfulEqOrd κ]

/-- Sets the value under a key; a new key comes last. -/
def insert (l : Lineup κ ν) (k : κ) (v : ν) : Lineup κ ν × Option ν :=
  (⟨l.values.insert k v, if l.values.contains k then l.order else l.order ++ [k]⟩,
   l.values.get? k)

/-- A change, with what is answered. -/
def step (l : Lineup κ ν) : Change κ ν → Lineup κ ν × Answer ν
  | .insert k v => ((l.insert k v).1, .held (l.insert k v).2)
  | .remove k => ((l.remove k).1, .held (l.remove k).2)
  | .modify k f => ({ l with values := l.values.modify k f }, .held (l.values.get? k))
  | .setOrder wish => ((l.setOrder wish).1, .moved (l.setOrder wish).2)

/-- Any number of changes. -/
def run (l : Lineup κ ν) (changes : List (Change κ ν)) : Lineup κ ν :=
  changes.foldl (fun l c => (l.step c).1) l

/-- The lineup shows the values of a keyed list in its order. -/
structure Shows (l : Lineup κ ν) (m : Keyed κ ν) : Prop where
  values : ∀ k, l.values.get? k = m.get? k
  order : l.order = m.keys

/-- Order and values fit together, and go on to do so whatever is changed next. -/
structure InOrder (l : Lineup κ ν) : Prop where
  /-- No key stands in the order twice. -/
  nodup : l.order.Nodup
  /-- The keys of the order are those that are held. -/
  mem_order : ∀ k, k ∈ l.order ↔ ∃ v, l.values.get? k = some v
  /-- Every value comes once, in the order of the keys. -/
  keys_entries : l.entries.map Prod.fst = l.order
  /-- What comes is what is held. -/
  mem_entries : ∀ k v, (k, v) ∈ l.entries ↔ l.values.get? k = some v
  /-- What a change makes of the order. -/
  order_step : ∀ c, (l.step c).1.order = c.reorder l.order
  /-- It is told whether a wish has changed the order. -/
  moved : ∀ wish, (l.setOrder wish).2 = true ↔ (l.setOrder wish).1.order ≠ l.order
  /-- The same wish changes nothing the second time. -/
  again : ∀ wish, (l.setOrder wish).1.setOrder wish = ((l.setOrder wish).1, false)

omit [Std.TransOrd κ] [Std.LawfulEqOrd κ] in
/-- After a wish the order is the one it leads to, and it is told whether that is another one. -/
theorem setOrder_eq (l : Lineup κ ν) (wish : List κ) :
    let order := joinKeys (fun _ => true) (joinKeys l.values.contains [] wish) l.order
    l.setOrder wish = ({ l with order }, decide (order ≠ l.order)) := by
  intro order
  rw [setOrder]
  split
  · next h =>
    have hsame : order = l.order := h
    simp [hsame]
  · next h =>
    have hother : order ≠ l.order := h
    simp [hother, order]

namespace Shows

variable {l : Lineup κ ν} {m : Keyed κ ν}

omit [Std.TransOrd κ] [Std.LawfulEqOrd κ] in
theorem contains (h : l.Shows m) (k : κ) : l.values.contains k = m.contains k := by
  rw [Table.contains_eq_isSome, Keyed.contains_eq_isSome, h.values]

omit [Std.TransOrd κ] [Std.LawfulEqOrd κ] in
/-- A wish sets the order that the keyed list is arranged in. -/
theorem setOrder_eq (h : l.Shows m) (wish : List κ) :
    l.setOrder wish =
      ({ l with order := rearrange wish l.order }, decide (rearrange wish l.order ≠ l.order)) := by
  have hd : l.order.Nodup := h.order ▸ m.nodup_keys
  have hheld : ∀ k, l.values.contains k = true ↔ k ∈ l.order := by
    intro k
    rw [h.contains, h.order]
    exact decide_eq_true_iff
  rw [Lineup.setOrder_eq, joinKeys_joinKeys hd hheld]

/-- **THE TWO DO NOT DRIFT APART**: what a change shows on the keyed list it shows on the lineup,
and the same is answered. -/
theorem step (h : l.Shows m) (c : Change κ ν) :
    (l.step c).1.Shows (m.step c).1 ∧ (l.step c).2 = (m.step c).2 := by
  cases c with
  | insert k v =>
      refine ⟨⟨?_, ?_⟩, congrArg Answer.held (h.values k)⟩
      · intro a
        show (l.values.insert k v).get? a = (m.insert k v).get? a
        rw [Table.get?_insert, Keyed.get?_insert, h.values]
        by_cases ha : a = k
        · rw [if_pos ha, if_pos ha.symm]
        · rw [if_neg ha, if_neg (Ne.symm ha)]
      · show (if l.values.contains k = true then _ else _) = (m.insert k v).keys
        rw [Keyed.keys_insert, h.contains, h.order]
        simp only [Keyed.contains, decide_eq_true_eq]
  | remove k =>
      show ((l.remove k).1.Shows (m.erase k)) ∧ Answer.held (l.remove k).2 = .held (m.get? k)
      rw [remove, h.values k]
      cases hv : m.get? k with
      | none =>
          -- a key that is not held is in neither order
          have hk : k ∉ m.keys := Keyed.get?_eq_none_iff.1 hv
          refine ⟨⟨?_, ?_⟩, rfl⟩
          · intro a
            rw [Keyed.get?_erase, h.values]
            split
            · next ha => rw [ha, hv]
            · rfl
          · show l.order = (m.erase k).keys
            rw [Keyed.keys_erase, h.order, List.filter_eq_self.2]
            intro a ha
            have hne : a ≠ k := fun heq => hk (heq ▸ ha)
            simp [hne]
      | some v =>
          refine ⟨⟨?_, ?_⟩, rfl⟩
          · intro a
            show (l.values.erase k).get? a = _
            rw [Table.get?_erase, Keyed.get?_erase, h.values]
          · show l.order.filter _ = _
            rw [Keyed.keys_erase, h.order]
  | modify k f =>
      refine ⟨⟨?_, ?_⟩, congrArg Answer.held (h.values k)⟩
      · intro a
        show (l.values.modify k f).get? a = (m.modify k f).get? a
        rw [Table.get?_modify, Keyed.get?_modify, h.values]
      · show l.order = (m.modify k f).keys
        rw [Keyed.keys_modify, h.order]
  | setOrder wish =>
      show (l.setOrder wish).1.Shows (m.arrange wish) ∧
        Answer.moved (l.setOrder wish).2 = .moved (decide ((m.arrange wish).keys ≠ m.keys))
      rw [h.setOrder_eq, Keyed.keys_arrange_eq, ← h.order]
      refine ⟨⟨?_, ?_⟩, rfl⟩
      · intro a
        show l.values.get? a = _
        rw [Keyed.get?_arrange, h.values]
      · rw [Keyed.keys_arrange_eq, ← h.order]

theorem run (h : l.Shows m) (changes : List (Change κ ν)) :
    (l.run changes).Shows (m.run changes) := by
  induction changes generalizing l m with
  | nil => exact h
  | cons c changes ih => exact ih (h.step c).1

omit [Std.TransOrd κ] [Std.LawfulEqOrd κ] in
/-- The entries are those of the keyed list. -/
theorem entries_eq (h : l.Shows m) : l.entries = m.entries := by
  let pair (p : κ × Option ν) : Option (κ × ν) := p.2.map (fun v => (p.1, v))
  have hpairs : l.entries = (m.keys.map (fun k => (k, m.get? k))).filterMap pair := by
    rw [entries, h.order, List.filterMap_map, ← funext h.values]
    rfl
  rw [hpairs, m.map_get?_keys, List.filterMap_map]
  exact List.filterMap_some

/-- Where a keyed list is shown, order and values fit together. -/
theorem inOrder (h : l.Shows m) : l.InOrder where
  nodup := h.order ▸ m.nodup_keys
  mem_order := by
    intro k
    rw [h.order, h.values]
    exact Keyed.mem_keys_iff
  keys_entries := by
    rw [h.entries_eq, h.order]
    rfl
  mem_entries := by
    intro k v
    rw [h.entries_eq, h.values]
    exact Keyed.get?_eq_some_iff.symm
  order_step := by
    intro c
    rw [(h.step c).1.order, Keyed.keys_step, ← h.order]
  moved := by
    intro wish
    rw [h.setOrder_eq, decide_eq_true_iff]
  again := by
    intro wish
    have hfirst : (l.setOrder wish).1 = { l with order := rearrange wish l.order } :=
      congrArg Prod.fst (h.setOrder_eq wish)
    have hafter : (l.setOrder wish).1.Shows (m.arrange wish) := (h.step (.setOrder wish)).1
    rw [hafter.setOrder_eq, hfirst, rearrange_rearrange]
    simp

end Shows

/-- **ORDER AND VALUES FIT TOGETHER** after any changes to an empty lineup. It is the keyed list
that is shown, and whatever is changed next, the same is answered. -/
theorem order_of_run (changes : List (Change κ ν)) :
    let l := ({} : Lineup κ ν).run changes
    let m := (Keyed.empty : Keyed κ ν).run changes
    l.InOrder ∧ l.Shows m ∧ ∀ c, (l.step c).2 = (m.step c).2 := by
  intro l m
  have hempty : ({} : Lineup κ ν).Shows .empty := ⟨fun _ => rfl, rfl⟩
  have hshows : l.Shows m := hempty.run changes
  exact ⟨hshows.inOrder, hshows, fun c => (hshows.step c).2⟩

/-- Three drivers come, the first one comes again, and the last one is wished to the front, twice
and with somebody who is not there. -/
theorem order_of_three_drivers :
    let changes : List (Change Guid Driver) :=
      [.insert ⟨"a"⟩ {}, .insert ⟨"b"⟩ {}, .insert ⟨"c"⟩ {}, .insert ⟨"a"⟩ {},
       .setOrder [⟨"z"⟩, ⟨"c"⟩, ⟨"c"⟩]]
    let l := ({} : Lineup Guid Driver).run changes
    l.InOrder ∧ l.order = [⟨"c"⟩, ⟨"a"⟩, ⟨"b"⟩] ∧ (l.setOrder [⟨"a"⟩]).2 = true ∧
      (l.remove ⟨"a"⟩).1.order = [⟨"c"⟩, ⟨"b"⟩] := by
  intro changes l
  obtain ⟨hfit, -, -⟩ := order_of_run changes
  exact ⟨hfit, by decide +kernel, by decide +kernel, by decide +kernel⟩

end Lineup

end Pitwall
