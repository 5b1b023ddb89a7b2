import Mathlib.Data.List.Perm.Basic
import Pitwall.Proofs.Data.Lookup
import Pitwall.Proofs.Json.Trees

/-!
# Reordering — the order of fields does not show

The value of an object has its fields in the order of their names, and so have the objects inside a
value that is read: **`ordered_of_value?`**. In which order they are written does not show, as long
as no name is repeated: **`value?_reordered`**.
-/

namespace Pitwall.Json

/-- An object holds its fields like a table. -/
theorem object_eq (fields : List (String × Json)) :
    object fields = .obj (Table.ofList fields).entries := by
  have hentries : (Table.ofList fields).entries =
      fields.foldl (fun sorted e => Table.insertEntry e.1 e.2 sorted) [] :=
    (List.foldl_hom Table.entries fun _ _ => rfl).symm
  rw [object, hentries]

theorem object_perm {fields fields' : List (String × Json)} (hp : fields.Perm fields')
    (hd : (fields.map Prod.fst).Nodup) : object fields = object fields' := by
  rw [object_eq, object_eq, Table.ofList_perm hp hd]

/-- The objects in the value have their fields in ascending order of the names. -/
inductive Ordered : Json → Prop
  | null : Ordered .null
  | bool (b : Bool) : Ordered (.bool b)
  | num (n : Number) : Ordered (.num n)
  | str (s : String) : Ordered (.str s)
  | arr {items : List Json} (h : ∀ j ∈ items, Ordered j) : Ordered (.arr items)
  | obj {fields : List (String × Json)}
    (ascending : (fields.map Prod.fst).Pairwise fun a b => compare a b = .lt)
    (h : ∀ e ∈ fields, Ordered e.2) : Ordered (.obj fields)

theorem ordered_object {fields : List (String × Json)} (h : ∀ e ∈ fields, e.2.Ordered) :
    (object fields).Ordered := by
  rw [object_eq]
  exact .obj (Table.ofList fields).ascending fun e he => h e (Table.mem_of_mem_entries_ofList he)

namespace Written

/-! ## Values of parts, taken apart -/

theorem value?_arr (depth : Nat) (items : List Written) :
    value? (depth + 1) (.arr items) = (values? depth items).map .arr := by
  rw [value?]

theorem value?_obj (depth : Nat) (fields : List (Option String × Written)) :
    value? (depth + 1) (.obj fields) = (fieldValues? depth fields).map object := by
  rw [value?]

theorem values?_append (depth : Nat) (vs ws : List Written) :
    values? depth (vs ++ ws) =
      (values? depth vs).bind fun is => (values? depth ws).map fun js => is ++ js := by
  induction vs with
  | nil => simp [values?]
  | cons v vs ih =>
      simp only [List.cons_append, values?, ih]
      cases value? depth v <;> cases values? depth vs <;> cases values? depth ws <;> rfl

theorem fieldValues?_append (depth : Nat) (fs gs : List (Option String × Written)) :
    fieldValues? depth (fs ++ gs) =
      (fieldValues? depth fs).bind fun es => (fieldValues? depth gs).map fun ds => es ++ ds := by
  induction fs with
  | nil => simp [fieldValues?]
  | cons f fs ih =>
      obtain ⟨name, w⟩ := f
      simp only [List.cons_append, fieldValues?, ih]
      cases name <;> cases value? depth w <;> cases fieldValues? depth fs <;>
        cases fieldValues? depth gs <;> rfl

/-- **VALUES ARE ORDERED**, however they are written. -/
theorem ordered_of_value? {depth : Nat} {w : Written} {j : Json} (h : w.value? depth = some j) :
    j.Ordered := by
  induction depth using Nat.strongRecOn generalizing w j with
  | ind depth ih =>
      cases w with
      | null => rw [value?] at h; rw [← Option.some.inj h]; exact .null
      | bool b => rw [value?] at h; rw [← Option.some.inj h]; exact .bool b
      | num n => rw [value?] at h; obtain ⟨n, -, rfl⟩ := Option.map_eq_some_iff.1 h; exact .num n
      | str s => rw [value?] at h; obtain ⟨s, -, rfl⟩ := Option.map_eq_some_iff.1 h; exact .str s
      | arr items =>
          cases depth with
          | zero => rw [value?] at h; cases h
          | succ depth =>
              rw [value?_arr] at h
              obtain ⟨js, hjs, rfl⟩ := Option.map_eq_some_iff.1 h
              refine .arr fun j hj => ?_
              obtain ⟨w, -, hw⟩ := exists_of_mem_forall₂ (values?_eq_some_iff.1 hjs) hj
              exact ih depth (Nat.lt_succ_self _) hw
      | obj fields =>
          cases depth with
          | zero => rw [value?] at h; cases h
          | succ depth =>
              rw [value?_obj] at h
              obtain ⟨es, hes, rfl⟩ := Option.map_eq_some_iff.1 h
              refine ordered_object fun e he => ?_
              obtain ⟨field, -, -, hw⟩ := exists_of_mem_forall₂ (fieldValues?_eq_some_iff.1 hes) he
              exact ih depth (Nat.lt_succ_self _) hw

/-- Fields in another order have the same value, if no name is repeated. -/
theorem value?_order {depth : Nat} {fields fields' : List (Option String × Written)} {j : Json}
    (hp : fields.Perm fields') (hd : (fields.map Prod.fst).Nodup)
    (h : value? depth (.obj fields) = some j) : value? depth (.obj fields') = some j := by
  cases depth with
  | zero => rw [value?] at h; cases h
  | succ depth =>
      rw [value?_obj] at h ⊢
      obtain ⟨es, hes, rfl⟩ := Option.map_eq_some_iff.1 h
      rw [fieldValues?_eq_some_iff] at hes
      obtain ⟨es', hes', hperm⟩ := List.perm_comp_forall₂ hp.symm hes
      -- the names that are written are those of the values
      have hnames : fields.map Prod.fst = es.map (some ∘ Prod.fst) := by
        rw [← List.forall₂_eq_eq_eq, List.forall₂_map_left_iff, List.forall₂_map_right_iff]
        exact hes.imp fun _ _ hf => hf.1
      rw [hnames, ← List.map_map] at hd
      rw [fieldValues?_eq_some_iff.2 hes', Option.map_some,
        ← object_perm hperm.symm (List.Nodup.of_map some hd)]

/-! ## Reordering -/

/-- In one of its objects, the second tree has the same fields in another order. -/
inductive Reordered : Written → Written → Prop
  | order {fields fields' : List (Option String × Written)} : fields.Perm fields' →
    (fields.map Prod.fst).Nodup → Reordered (.obj fields) (.obj fields')
  | item {w w' : Written} (before behind : List Written) : Reordered w w' →
    Reordered (.arr (before ++ w :: behind)) (.arr (before ++ w' :: behind))
  | field {w w' : Written} (before behind : List (Option String × Written)) (name : Option String) :
    Reordered w w' →
    Reordered (.obj (before ++ (name, w) :: behind)) (.obj (before ++ (name, w') :: behind))

/-- **THE ORDER OF FIELDS** does not show in a value. -/
theorem value?_reordered {w w' : Written} (h : Reordered w w') (depth : Nat) :
    w.value? depth = w'.value? depth := by
  induction h generalizing depth with
  | order hp hd =>
      refine Option.ext fun j => ⟨value?_order hp hd, value?_order hp.symm ?_⟩
      exact (hp.map Prod.fst).nodup_iff.1 hd
  | item before behind _ ih =>
      cases depth with
      | zero => rw [value?, value?]
      | succ depth => 
          rw [value?_arr, value?_arr, values?_append, values?_append, values?, values?, ih]
  | field before behind name _ ih =>
      cases depth with
      | zero => rw [value?, value?]
      | succ depth =>
          rw [value?_obj, value?_obj, fieldValues?_append, fieldValues?_append, fieldValues?,
            fieldValues?, ih]

end Written

end Pitwall.Json
