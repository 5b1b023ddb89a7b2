import Mathlib.Data.List.Forall2
import Mathlib.Data.List.Nodup
import Pitwall.Json.Written

/-!
# Trees and their values — item by item

The value of an array or an object is made of the values of what stands in it, in the same order:
**`values?_eq_some_iff`** and **`fieldValues?_eq_some_iff`** say so for lists of equal length. What
stands under a name (`named`) is a matter of the fields of that name alone: if no name is repeated,
their order does not show (**`named_perm`**).
-/

namespace Pitwall

/-- A list is read item by item. -/
theorem mapM_eq_some_iff {α β : Type} {f : α → Option β} {as : List α} {bs : List β} :
    as.mapM f = some bs ↔ List.Forall₂ (fun a b => f a = some b) as bs := by
  induction as generalizing bs with
  | nil =>
      rw [List.mapM_nil, List.forall₂_nil_left_iff]
      exact Option.some_inj.trans eq_comm
  | cons a as ih =>
      rw [List.mapM_cons, List.forall₂_cons_left_iff]
      constructor
      · intro h
        obtain ⟨b, hb, hrest⟩ := Option.bind_eq_some_iff.1 h
        obtain ⟨bs', hbs, hcons⟩ := Option.bind_eq_some_iff.1 hrest
        exact ⟨b, bs', hb, ih.1 hbs, (Option.some.inj hcons).symm⟩
      · rintro ⟨b, bs', hb, hbs, rfl⟩
        rw [hb, ih.2 hbs]
        rfl

/-- Where every item is matched, all of them are. -/
theorem exists_forall₂ {α β : Type} {R : α → β → Prop} {as : List α} (h : ∀ a ∈ as, ∃ b, R a b) :
    ∃ bs, List.Forall₂ R as bs := by
  induction as with
  | nil => exact ⟨[], .nil⟩
  | cons a as ih =>
      obtain ⟨⟨b, hb⟩, has⟩ := List.forall_mem_cons.1 h
      obtain ⟨bs, hbs⟩ := ih has
      exact ⟨b :: bs, .cons hb hbs⟩

theorem exists_of_mem_forall₂ {α β : Type} {R : α → β → Prop} {as : List α} {bs : List β}
    (h : List.Forall₂ R as bs) {b : β} (hb : b ∈ bs) : ∃ a ∈ as, R a b := by
  induction h with
  | nil => cases hb
  | cons hab _ ih =>
      rcases List.mem_cons.1 hb with rfl | hb
      · exact ⟨_, List.mem_cons_self, hab⟩
      · obtain ⟨a, ha, hr⟩ := ih hb
        exact ⟨a, List.mem_cons_of_mem _ ha, hr⟩

namespace Json.Written

/-! ## Values of parts -/

/-- A field has this name and this value. -/
def IsField (depth : Nat) (field : Option String × Written) (e : String × Json) : Prop :=
  field.1 = some e.1 ∧ field.2.value? depth = some e.2

theorem values?_eq_some_iff {depth : Nat} {ws : List Written} {js : List Json} :
    values? depth ws = some js ↔
      List.Forall₂ (fun w j => w.value? depth = some j) ws js := by
  rw [← mapM_eq_some_iff]
  suffices h : values? depth ws = ws.mapM (value? depth) by rw [h]
  induction ws with
  | nil => rw [values?, List.mapM_nil]; rfl
  | cons w ws ih => rw [values?, List.mapM_cons, ih]

theorem fieldValues?_eq_some_iff {depth : Nat} {fields : List (Option String × Written)}
    {es : List (String × Json)} :
    fieldValues? depth fields = some es ↔ List.Forall₂ (IsField depth) fields es := by
  induction fields generalizing es with
  | nil =>
      rw [fieldValues?, List.forall₂_nil_left_iff]
      exact Option.some_inj.trans eq_comm
  | cons field fields ih =>
      obtain ⟨name, w⟩ := field
      rw [fieldValues?, List.forall₂_cons_left_iff]
      constructor
      · intro h
        obtain ⟨n, hn, hrest⟩ := Option.bind_eq_some_iff.1 h
        obtain ⟨j, hj, hrest⟩ := Option.bind_eq_some_iff.1 hrest
        obtain ⟨es', hes, hcons⟩ := Option.bind_eq_some_iff.1 hrest
        exact ⟨(n, j), es', ⟨hn, hj⟩, ih.1 hes, (Option.some.inj hcons).symm⟩
      · rintro ⟨⟨n, j⟩, es', ⟨hn, hj⟩, hes, rfl⟩
        rw [show name = some n from hn, show w.value? depth = some j from hj, ih.2 hes]
        rfl

/-- Only a number is written for a number. -/
theorem value?_eq_num_iff {depth : Nat} {w : Written} {n : Number} :
    w.value? depth = some (.num n) ↔ w = .num (some n) := by
  constructor
  · intro h
    cases w with
    | num m =>
        rw [value?] at h
        obtain ⟨m, rfl, hm⟩ := Option.map_eq_some_iff.1 h
        cases hm
        rfl
    | null => rw [value?] at h; cases h
    | bool b => rw [value?] at h; cases h
    | str s =>
        rw [value?] at h
        obtain ⟨s, -, hs⟩ := Option.map_eq_some_iff.1 h
        cases hs
    | arr items =>
        cases depth with
        | zero => rw [value?] at h; cases h
        | succ depth =>
            rw [value?] at h
            obtain ⟨js, -, hjs⟩ := Option.map_eq_some_iff.1 h
            cases hjs
    | obj fields =>
        cases depth with
        | zero => rw [value?] at h; cases h
        | succ depth =>
            rw [value?] at h
            obtain ⟨es, -, hes⟩ := Option.map_eq_some_iff.1 h
            cases hes
  · rintro rfl
    rw [value?, Option.map_some]

/-! ## Names -/

/-- What stands under a name, in the order of the fields. -/
def named (name : String) (fields : List (Option String × Written)) : List Written :=
  (fields.filter fun field => field.1 == some name).map Prod.snd

theorem named_append (name : String) (before behind : List (Option String × Written)) :
    named name (before ++ behind) = named name before ++ named name behind := by
  rw [named, List.filter_append, List.map_append]
  rfl

theorem named_cons_of_eq (name : String) (w : Written) (fields : List (Option String × Written)) :
    named name ((some name, w) :: fields) = w :: named name fields := by
  rw [named, List.filter_cons, if_pos (beq_self_eq_true (some name))]
  rfl

theorem named_cons_of_ne {name : String} {key : Option String} (h : key ≠ some name) (w : Written)
    (fields : List (Option String × Written)) :
    named name ((key, w) :: fields) = named name fields := by
  rw [named, List.filter_cons, if_neg (by simpa using h)]
  rfl

/-- The values under a name are those of what stands under it. -/
theorem forall₂_named {depth : Nat} {fields : List (Option String × Written)}
    {es : List (String × Json)} (h : List.Forall₂ (IsField depth) fields es) (name : String) :
    List.Forall₂ (fun w j => w.value? depth = some j) (named name fields)
      ((es.filter fun e => e.1 == name).map Prod.snd) := by
  rw [named, List.forall₂_map_left_iff, List.forall₂_map_right_iff]
  refine (List.rel_filter (R := IsField depth) ?_ h).imp fun _ _ hf => hf.2
  rintro field e ⟨hname, -⟩
  simp [hname]

/-- Among fields with names of their own, the order does not show. -/
theorem named_perm {fields fields' : List (Option String × Written)} (hp : fields.Perm fields')
    (hd : (fields.map Prod.fst).Nodup) (name : String) :
    named name fields = named name fields' := by
  have hfilter := hp.filter fun field => field.1 == some name
  -- at most one field has the name
  have hone : (fields.filter fun field => field.1 == some name).length ≤ 1 := by
    rw [← List.countP_eq_length_filter]
    have hcount := List.nodup_iff_count_le_one.1 hd (some name)
    rwa [List.count, List.countP_map] at hcount
  rw [named, named]
  cases hfields : fields.filter fun field => field.1 == some name with
  | nil =>
      rw [hfields] at hfilter
      rw [List.nil_perm.1 hfilter]
  | cons field rest =>
      rw [hfields, List.length_cons] at hone
      obtain rfl : rest = [] := List.length_eq_zero_iff.1 (by omega)
      rw [hfields] at hfilter
      rw [List.singleton_perm.1 hfilter]

end Json.Written

end Pitwall
