import Pitwall.Proofs.Board.Bare

/-!
# Bystanders — what is done about one driver leaves the others alone

Entering a driver, filing the cars and setting the marker is done under one GUID. What stands under
the others keeps its entries and their order: **`Board.SameButFor`**. Filing and syncing keep that,
and so does connecting (**`Board.sameButFor_connect`**).
-/

namespace Pitwall

namespace Keyed

variable {κ ν : Type}

/-- The entries whose keys pass a test, in their order. -/
def part (m : Keyed κ ν) (p : κ → Bool) : List (κ × ν) := m.entries.filter (fun e => p e.1)

variable [DecidableEq κ] {p : κ → Bool} {k : κ}

/-- What is done under a key that does not pass does not show. -/
theorem part_erase (m : Keyed κ ν) (hk : p k = false) : (m.erase k).part p = m.part p := by
  rw [part, part, erase, List.filter_filter]
  refine List.filter_congr fun e _ => ?_
  by_cases he : e.1 = k
  · rw [he, hk, Bool.false_and]
  · rw [decide_eq_true he, Bool.and_true]

theorem part_modify (m : Keyed κ ν) (hk : p k = false) (f : ν → ν) :
    (m.modify k f).part p = m.part p := by
  have hkey : ∀ e : κ × ν, (if e.1 = k then (e.1, f e.2) else e).1 = e.1 := by
    intro e
    split <;> rfl
  have hother : ∀ e ∈ m.entries.filter (fun e => p e.1),
      (if e.1 = k then (e.1, f e.2) else e) = id e := by
    intro e he
    have hpass : p e.1 = true := (List.mem_filter.1 he).2
    refine if_neg fun heq => ?_
    rw [heq, hk] at hpass
    cases hpass
  rw [part, part, modify, List.filter_map]
  simp only [Function.comp_def, hkey]
  rw [List.map_congr_left hother, List.map_id]

theorem part_insert (m : Keyed κ ν) (hk : p k = false) (v : ν) :
    (m.insert k v).part p = m.part p := by
  rw [insert]
  split
  · exact m.part_modify hk _
  · have hnew : [(k, v)].filter (fun e => p e.1) = [] := by simp [hk]
    rw [part, List.filter_append, hnew, List.append_nil]
    rfl

/-- What passes is found alike where the same entries pass. -/
theorem get?_eq_of_part {m n : Keyed κ ν} (h : m.part p = n.part p) (hk : p k = true) :
    m.get? k = n.get? k := by
  have hpass : ∀ l : Keyed κ ν, Entries.value? k (l.part p) = l.get? k := by
    intro l
    rw [part, Entries.value?_filter l.distinct]
    cases hv : Entries.value? k l.entries with
    | none => exact hv.symm
    | some v => exact (if_pos hk).trans hv.symm
  rw [← hpass m, h, hpass n]

end Keyed

namespace Board

/-- The boards differ at most in what they say of one driver, and in who occupies which place. -/
structure SameButFor (b c : Board) (g : Guid) : Prop where
  /-- The other connected drivers have the same records, in the same order. -/
  connected : c.connected.part (· ≠ g) = b.connected.part (· ≠ g)
  /-- The others have the same files, in the same order. -/
  files : c.disconnected.part (·.guid ≠ g) = b.disconnected.part (·.guid ≠ g)
  /-- The others have the same markers. -/
  markers : ∀ h, h ≠ g → c.markers.get? h = b.markers.get? h
  /-- Session and track are the same. -/
  rest : { c with
    connected := b.connected
    disconnected := b.disconnected
    cars := b.cars
    markers := b.markers } = b

namespace SameButFor

variable {b c : Board} {g : Guid}

/-- The others have the same record. -/
theorem get?_connected (h : b.SameButFor c g) {a : Guid} (ha : a ≠ g) :
    c.connected.get? a = b.connected.get? a :=
  Keyed.get?_eq_of_part h.connected (decide_eq_true ha)

/-- Files of the driver do not matter. -/
theorem fileAll (h : b.SameButFor c g) {rs : List Driver} (hrs : ∀ r ∈ rs, r.guid = g) :
    b.SameButFor (c.fileAll rs) g := by
  induction rs generalizing c with
  | nil => exact h
  | cons r rs ih =>
      have hslot : decide (r.slot.guid ≠ g) = false :=
        decide_eq_false (fun hne => hne (hrs r List.mem_cons_self))
      rw [fileAll_cons]
      refine ih ⟨h.connected, ?_, h.markers, h.rest⟩ fun q hq => hrs q (List.mem_cons_of_mem r hq)
      exact (Keyed.part_insert (p := fun k : Slot => k.guid ≠ g) _ hslot r).trans h.files

/-- Keeping the files of the driver in line does not matter. -/
theorem sync (h : b.SameButFor c g) (hown : ∀ d, c.connected.get? g = some d → d.guid = g) :
    b.SameButFor (c.sync g) g := by
  cases hd : c.connected.get? g with
  | none =>
      rw [sync_of_none hd]
      exact h
  | some d =>
      have hslot : decide (d.slot.guid ≠ g) = false := decide_eq_false (fun hne => hne (hown d hd))
      have herased : b.SameButFor { c with disconnected := c.disconnected.erase d.slot } g :=
        ⟨h.connected, (Keyed.part_erase (p := fun k : Slot => k.guid ≠ g) _ hslot).trans h.files,
          h.markers, h.rest⟩
      rw [sync_of_some hd]
      refine herased.fileAll ?_
      intro r hr
      rw [Driver.guid_of_mem_variants hr, hown d hd]

end SameButFor

/-- **WHO CONNECTS CONCERNS NO ONE ELSE**, except for the place. -/
theorem sameButFor_connect (b : Board) (car : CarInfo) (now : Instant) :
    b.SameButFor (b.connect car now) car.guid := by
  have hself : decide (car.guid ≠ car.guid) = false := decide_eq_false (fun h => h rfl)
  have hentered : b.SameButFor (b.entering car now) car.guid :=
    ⟨Keyed.part_insert (p := fun a => a ≠ car.guid) _ hself _, rfl, fun _ _ => rfl, rfl⟩
  have hsynced : b.SameButFor ((b.entering car now).sync car.guid) car.guid := by
    refine hentered.sync ?_
    intro d hd
    have hjoin : (b.connected.insert car.guid (b.joining car now)).get? car.guid = some d := hd
    rw [Keyed.get?_insert, if_pos rfl] at hjoin
    rw [← Option.some.inj hjoin, guid_joining]
  refine ⟨hsynced.connected, hsynced.files, ?_, hsynced.rest⟩
  intro h hne
  rw [markers_connect, Table.get?_insert, if_neg (Ne.symm hne)]

end Board

end Pitwall
