import Pitwall.Proofs.Json.Numeric
import Pitwall.Proofs.Json.Reordering
import Pitwall.Proofs.Wire.Writing

/-!
# Shapes — spellings that say the same

A structure can be written in many ways: with its fields in any order, with fields that it does not
have, and with or without an explicit `null` where that says what a missing field says. A `Shape`
tells what may be done where, and `Edited` is one such change at one place of a tree.

What is read may not show the change. `Reader.Tolerates` says so of a reader and a shape; it holds
of lists, maps and optional values if it holds of what is in them, and of a structure if its fields
are read independently of each other: **`Record.tolerates_codec`**.
-/

namespace Pitwall

open Json (Written)
open Json.Written (Reordered values?_append fieldValues?_append value?_arr value?_obj)

/-- What is written at a place, as far as spellings of it go. -/
inductive Shape where
  /-- A value as it is. -/
  | plain
  | list (items : Shape)
  /-- An object whose names are keys. -/
  | map (values : Shape)
  /-- A structure: the names of its fields, those among them for which `null` stands as well, and
  the shapes of those that are not plain. -/
  | struct (names nullable : List String) (parts : List (String × Shape))

namespace Shape

instance : Inhabited Shape := ⟨.plain⟩

/-- The shape of a field; those that are not given are plain. -/
def ofField (parts : List (String × Shape)) (name : String) : Shape :=
  (parts.lookup name).getD .plain

end Shape

/-- One change of a tree that may not show, where containers may nest `depth` deep. -/
inductive Edited : Shape → Nat → Written → Written → Prop
  /-- The fields of some object are put in another order. -/
  | order {shape : Shape} {depth : Nat} {w w' : Written} : Reordered w w' →
    Edited shape depth w w'
  /-- A structure gets a field that it does not have, with any value. -/
  | unknown {names nullable : List String} {parts : List (String × Shape)} {depth : Nat}
    (before behind : List (Option String × Written)) {name : String} {w : Written} :
    name ∉ names → (w.value? depth).isSome →
    Edited (.struct names nullable parts) (depth + 1) (.obj (before ++ behind))
      (.obj (before ++ (some name, w) :: behind))
  /-- A missing field is written as `null`. -/
  | null {names nullable : List String} {parts : List (String × Shape)} {depth : Nat}
    (before behind : List (Option String × Written)) {name : String} :
    name ∈ nullable → (∀ f ∈ before ++ behind, f.1 ≠ some name) →
    Edited (.struct names nullable parts) (depth + 1) (.obj (before ++ behind))
      (.obj (before ++ (some name, .null) :: behind))
  /-- A field of a structure is changed. -/
  | field {names nullable : List String} {parts : List (String × Shape)} {depth : Nat}
    (before behind : List (Option String × Written)) {name : String} {w w' : Written} :
    name ∈ names → Edited (Shape.ofField parts name) depth w w' →
    Edited (.struct names nullable parts) (depth + 1) (.obj (before ++ (some name, w) :: behind))
      (.obj (before ++ (some name, w') :: behind))
  /-- An item of a list is changed. -/
  | item {items : Shape} {depth : Nat} (before behind : List Written) {w w' : Written} :
    Edited items depth w w' →
    Edited (.list items) (depth + 1) (.arr (before ++ w :: behind)) (.arr (before ++ w' :: behind))
  /-- What stands under a key is changed. -/
  | value {values : Shape} {depth : Nat} (before behind : List (Option String × Written))
    {key : Option String} {w w' : Written} :
    Edited values depth w w' →
    Edited (.map values) (depth + 1) (.obj (before ++ (key, w) :: behind))
      (.obj (before ++ (key, w') :: behind))

/-- A reader cannot tell the values apart, if there are any; `null` is told from all else. -/
inductive Alike {β : Type} (read : Json → β) : Option Json → Option Json → Prop
  | none : Alike read none none
  | some {j j' : Json} : read j = read j' → (j = .null ↔ j' = .null) →
    Alike read (some j) (some j')

/-- Changes of the shape do not show to the reader. -/
def Tolerates {β : Type} (read : Json → β) (shape : Shape) : Prop :=
  ∀ depth w w', Edited shape depth w w' → Alike read (w.value? depth) (w'.value? depth)

namespace Alike

variable {α β γ : Type} {read : Json → β}

theorem refl (o : Option Json) : Alike read o o := by
  cases o with
  | none => exact .none
  | some j => exact .some rfl Iff.rfl

theorem symm {o o' : Option Json} (h : Alike read o o') : Alike read o' o := by
  cases h with
  | none => exact .none
  | some hread hnull => exact .some hread.symm hnull.symm

theorem through {read' : Json → γ} {o o' : Option Json} (h : Alike read o o')
    (hread : ∀ j j', read j = read j' → read' j = read' j') : Alike read' o o' := by
  cases h with
  | none => exact .none
  | some hj hnull => exact .some (hread _ _ hj) hnull

end Alike

namespace Tolerates

variable {α β γ κ ν : Type} {read : Json → β} {shape : Shape}

/-- In a plain value nothing but the order of fields may change. -/
theorem plain (read : Json → β) : Tolerates read .plain := by
  intro depth w w' h
  cases h with
  | order h =>
      rw [Json.Written.value?_reordered h]
      exact .refl _

/-- What goes through a reader shows no more than the reader does. -/
theorem through {read' : Json → γ} (h : Tolerates read shape)
    (hread : ∀ j j', read j = read j' → read' j = read' j') : Tolerates read' shape :=
  fun depth w w' hw => (h depth w w' hw).through hread

theorem comp (h : Tolerates read shape) (f : β → γ) : Tolerates (fun j => f (read j)) shape :=
  h.through fun _ _ hj => congrArg f hj

theorem map {c : Codec α} (h : Tolerates c.read shape) (forth : α → β) (back : β → α) :
    Tolerates (c.map forth back).read shape := h.comp (Option.map forth)

/-- Where `null` is read in a way of its own, all else may be read as before. -/
theorem withNull {read' : Json → β} (h : Tolerates read shape)
    (hrest : ∀ j, j ≠ .null → read' j = read j) : Tolerates read' shape := by
  intro depth w w' hw
  have halike := h depth w w' hw
  generalize w.value? depth = o, w'.value? depth = o' at halike ⊢
  cases halike with
  | none => exact .none
  | @some j j' hread hnull =>
      refine .some ?_ hnull
      by_cases hj : j = .null
      · rw [hj, hnull.1 hj]
      · rw [hrest j hj, hrest j' fun hj' => hj (hnull.2 hj'), hread]

theorem option {c : Codec α} (h : Tolerates c.read shape) : Tolerates c.option.read shape := by
  refine (h.comp (Option.map some)).withNull fun j hj => ?_
  cases j with
  | null => exact absurd rfl hj
  | _ => rfl

theorem nullAs {c : Codec α} (h : Tolerates c.read shape) (value : α) :
    Tolerates (c.nullAs value).read shape := by
  refine h.withNull fun j hj => ?_
  cases j with
  | null => exact absurd rfl hj
  | _ => rfl

/-! ## Collections -/

theorem list {c : Codec α} (h : Tolerates c.read shape) :
    Tolerates c.list.read (.list shape) := by
  intro depth v v' hv
  cases hv with
  | order hv =>
      rw [Json.Written.value?_reordered hv]
      exact .refl _
  | @item _ depth before behind w w' hw =>
      rw [value?_arr, value?_arr, values?_append, values?_append, Json.Written.values?,
        Json.Written.values?]
      have halike := h depth w w' hw
      generalize w.value? depth = o, w'.value? depth = o' at halike ⊢
      cases Json.Written.values? depth before with
      | none => exact .none
      | some is =>
          cases halike with
          | none => exact .none
          | some hread _ =>
              cases Json.Written.values? depth behind with
              | none => exact .none
              | some js =>
                  refine .some ?_ (by simp)
                  show (is ++ _ :: js).mapM c.read = (is ++ _ :: js).mapM c.read
                  rw [List.mapM_append, List.mapM_append, List.mapM_cons, List.mapM_cons, hread]

end Tolerates

/-! ## Fields of an object -/

/-- Fields one by one: the same names, and values that agree in some way. -/
abbrev Fieldwise (R : String → Json → Json → Prop) :
    List (String × Json) → List (String × Json) → Prop :=
  List.Forall₂ fun e e' => e.1 = e'.1 ∧ R e.1 e.2 e'.2

namespace Fieldwise

variable {R : String → Json → Json → Prop}

theorem refl (hR : ∀ name j, R name j j) (es : List (String × Json)) : Fieldwise R es es :=
  List.forall₂_same.2 fun e _ => ⟨rfl, hR e.1 e.2⟩

theorem insertEntry {es es' : List (String × Json)} (h : Fieldwise R es es') {name : String}
    {j j' : Json} (hj : R name j j') :
    Fieldwise R (Table.insertEntry name j es) (Table.insertEntry name j' es') := by
  induction h with
  | nil => exact .cons ⟨rfl, hj⟩ .nil
  | @cons e e' es es' he hes ih =>
      rw [Table.insertEntry, Table.insertEntry, ← he.1]
      cases compare name e.1 with
      | lt => exact .cons ⟨rfl, hj⟩ (.cons he hes)
      | eq => exact .cons ⟨rfl, hj⟩ hes
      | gt => exact .cons he ih

/-- Fields that agree one by one do so in the order of an object. -/
theorem ofList {es es' : List (String × Json)} (h : Fieldwise R es es') :
    Fieldwise R (Table.ofList es).entries (Table.ofList es').entries := by
  suffices hs : ∀ t t' : Table String Json, Fieldwise R t.entries t'.entries →
      Fieldwise R (es.foldl (fun t e => t.insert e.1 e.2) t).entries
        (es'.foldl (fun t e => t.insert e.1 e.2) t').entries from hs .empty .empty .nil
  induction h with
  | nil => exact fun t t' ht => ht
  | @cons e e' es es' he _ ih =>
      intro t t' ht
      refine ih _ _ ?_
      show Fieldwise R (Table.insertEntry e.1 e.2 t.entries)
        (Table.insertEntry e'.1 e'.2 t'.entries)
      rw [← he.1]
      exact ht.insertEntry he.2

end Fieldwise

namespace Tolerates

variable {α β γ κ ν : Type} {shape : Shape}

/-- One field of an object is changed. -/
theorem alike_field (read : Json → α) {read' : Json → β} {depth : Nat} {w w' : Written}
    {R : String → Json → Json → Prop} (hR : ∀ name j, R name j j) {key : Option String}
    (hw : Alike read' (w.value? depth) (w'.value? depth))
    (hkey : ∀ name j j', key = some name → read' j = read' j' → R name j j')
    (hread : ∀ es es', Fieldwise R es es' → read (.obj es) = read (.obj es'))
    (before behind : List (Option String × Written)) :
    Alike read (Written.value? (depth + 1) (.obj (before ++ (key, w) :: behind)))
      (Written.value? (depth + 1) (.obj (before ++ (key, w') :: behind))) := by
  rw [value?_obj, value?_obj, fieldValues?_append, fieldValues?_append, Json.Written.fieldValues?,
    Json.Written.fieldValues?]
  generalize w.value? depth = o, w'.value? depth = o' at hw ⊢
  cases Json.Written.fieldValues? depth before with
  | none => exact .none
  | some es =>
      cases key with
      | none => exact .none
      | some name =>
          cases hw with
          | none => exact .none
          | @some j j' hj _ =>
              cases Json.Written.fieldValues? depth behind with
              | none => exact .none
              | some ds =>
                  refine .some ?_ (by simp [Json.object])
                  show read (Json.object (es ++ (name, j) :: ds)) =
                    read (Json.object (es ++ (name, j') :: ds))
                  rw [Json.object_eq, Json.object_eq]
                  refine hread _ _ (Fieldwise.ofList ?_)
                  exact List.rel_append (Fieldwise.refl hR es)
                    (.cons ⟨rfl, hkey name j j' rfl hj⟩ (Fieldwise.refl hR ds))

/-- Items that are read alike make lists that are read alike. -/
theorem mapM_congr_forall₂ {as as' : List α} {f : α → Option β}
    (h : List.Forall₂ (fun a a' => f a = f a') as as') : as.mapM f = as'.mapM f := by
  induction h with
  | nil => rfl
  | cons ha _ ih => rw [List.mapM_cons, List.mapM_cons, ha, ih]

theorem entries {c : Codec ν} (h : Tolerates c.read shape) (key : Codec.Key κ) :
    Tolerates (Codec.entries key c).read (.map shape) := by
  intro depth v v' hv
  cases hv with
  | order hv =>
      rw [Json.Written.value?_reordered hv]
      exact .refl _
  | @value _ depth before behind name w w' hw =>
      refine alike_field (Codec.entries key c).read (R := fun _ j j' => c.read j = c.read j')
        (fun _ _ => rfl) (h depth w w' hw) (fun _ _ _ _ hj => hj) (fun es es' hes => ?_)
        before behind
      show es.mapM (fun e => do return (← key.read e.1, ← c.read e.2)) =
        es'.mapM fun e => do return (← key.read e.1, ← c.read e.2)
      refine mapM_congr_forall₂ (hes.imp fun e e' he => ?_)
      rw [he.1, he.2]

theorem keyed [DecidableEq κ] {c : Codec ν} (h : Tolerates c.read shape) (key : Codec.Key κ) :
    Tolerates (Codec.keyed key c).read (.map shape) :=
  (h.entries key).map _ _

theorem table [Ord κ] [Std.TransOrd κ] [Std.LawfulEqOrd κ] {c : Codec ν}
    (h : Tolerates c.read shape) (key : Codec.Key κ) :
    Tolerates (Codec.table key c).read (.map shape) :=
  (h.entries key).map _ _

end Tolerates

/-! ## Structures -/

namespace Field

variable {σ α β : Type}

/-- All names that the field goes by. -/
def names (f : Field σ) : List String := f.name :: f.aliases

theorem isNamed_iff {f : Field σ} {name : String} : f.isNamed name = true ↔ name ∈ f.names := by
  rw [isNamed, names, Bool.or_eq_true, beq_iff_eq, List.contains_iff_mem, List.mem_cons, eq_comm]

/-- It does not matter which of the two fields is read first. -/
def Commutes (f g : Field σ) : Prop :=
  ∀ i j s, (f.read i s).bind (g.read j) = (g.read j s).bind (f.read i)

@[simp] theorem commutes_of {c : Codec α} {d : Codec β} {name name' : String} {get : σ → α}
    {get' : σ → β} {set : σ → α → σ} {set' : σ → β → σ}
    (h : ∀ s a b, set' (set s a) b = set (set' s b) a) :
    (of name c get set).Commutes (of name' d get' set') := by
  intro i j s
  show ((c.read i).map (set s)).bind (fun t => (d.read j).map (set' t)) =
    ((d.read j).map (set' s)).bind fun t => (c.read i).map (set t)
  cases c.read i with
  | none => cases d.read j <;> rfl
  | some a =>
      cases d.read j with
      | none => rfl
      | some b => exact congrArg some (h s a b)

@[simp] theorem commutes_orNamed {f g : Field σ} {other : String} :
    f.Commutes (g.orNamed other) ↔ f.Commutes g := Iff.rfl

/-- A field tolerates what its codec does. -/
theorem tolerates_of {c : Codec α} {name : String} {get : σ → α} {set : σ → α → σ}
    {parts : List (String × Shape)} (h : Tolerates c.read (Shape.ofField parts name)) :
    ∀ n ∈ (of name c get set).names,
      Tolerates (of name c get set).read (Shape.ofField parts n) := by
  intro n hn
  obtain rfl : n = name := List.mem_singleton.1 hn
  exact h.comp fun o s => o.map (set s)

end Field

namespace Record

variable {σ : Type} {r : Record σ}

/-- The names that the fields go by. -/
def names (r : Record σ) : List String := r.fields.flatMap Field.names

/-- The record reads structures of this shape. -/
structure Spells (r : Record σ) (nullable : List String) (parts : List (String × Shape)) :
    Prop where
  /-- No two fields share a name. -/
  apart : r.names.Nodup
  /-- In which order fields are read does not matter. -/
  independent : r.fields.Pairwise Field.Commutes
  /-- What is in a field is read as its shape says. -/
  parts : ∀ f ∈ r.fields, ∀ name ∈ f.names, Tolerates f.read (Shape.ofField parts name)
  /-- A field that may be `null` may be missing, and is then what it would be as `null`. -/
  nulls : ∀ name ∈ nullable, ∃ f ∈ r.fields, f.names = [name] ∧ f.required = false ∧
    f.read .null r.start = some r.start

/-- The shape of the structures that a record reads. -/
def shape (r : Record σ) (nullable : List String) (parts : List (String × Shape)) : Shape :=
  .struct r.names nullable parts

/-- A field looks at the names that it goes by and at nothing else. -/
theorem readNamed_congr {f : Field σ} {o o' : List (String × Json)}
    (h : o.filter (fun e => f.isNamed e.1) = o'.filter fun e => f.isNamed e.1) (s : σ) :
    readNamed o s f = readNamed o' s f := by
  rw [readNamed, readNamed, h]

/-- A field does not look at a name that it does not go by. -/
theorem readNamed_skip {f : Field σ} {name : String} (hname : f.isNamed name = false)
    (es ds : List (String × Json)) (j : Json) (s : σ) :
    readNamed (Table.ofList (es ++ (name, j) :: ds)).entries s f =
      readNamed (Table.ofList (es ++ ds)).entries s f := by
  refine readNamed_congr ?_ s
  rw [filter_isNamed, filter_isNamed, List.filter_append, List.filter_append,
    List.filter_cons_of_neg (by simp [hname])]

/-- **UNKNOWN FIELDS** are skipped. -/
theorem readObject_unknown {name : String} (hname : name ∉ r.names) (es ds : List (String × Json))
    (j : Json) :
    r.readObject (Table.ofList (es ++ (name, j) :: ds)).entries =
      r.readObject (Table.ofList (es ++ ds)).entries := by
  refine foldlM_congr (fun f hf s => readNamed_skip ?_ es ds j s) r.start
  rw [Bool.eq_false_iff, Ne, Field.isNamed_iff]
  exact fun h => hname (List.mem_flatMap.2 ⟨f, hf, h⟩)

/-- A field that has not been read yet is what it would be as `null`. -/
theorem read_null_of_foldlM {f : Field σ} {o : List (String × Json)} {before : List (Field σ)}
    (hbefore : ∀ g ∈ before, g.Commutes f) {s t : σ} (hs : f.read .null s = some s)
    (h : before.foldlM (readNamed o) s = some t) : f.read .null t = some t := by
  refine foldlM_invariant (I := fun s => f.read .null s = some s) ?_ hs h
  intro s g t hg hs hread
  rw [readNamed] at hread
  split at hread
  · split at hread
    · cases hread
    · obtain rfl := Option.some.inj hread
      exact hs
  · next e _ =>
    have hcomm := hbefore g hg e.2 .null s
    rw [hread, hs, Option.bind_some, Option.bind_some, hread] at hcomm
    exact hcomm
  · cases hread

/-- **NULL IS NOTHING**: a missing field that may be `null` may as well be written as `null`. -/
theorem readObject_null {nullable : List String} {parts : List (String × Shape)}
    (h : r.Spells nullable parts) {name : String} (hname : name ∈ nullable)
    {es ds : List (String × Json)} (hmissing : ∀ e ∈ es ++ ds, e.1 ≠ name) :
    r.readObject (Table.ofList (es ++ (name, .null) :: ds)).entries =
      r.readObject (Table.ofList (es ++ ds)).entries := by
  obtain ⟨f, hf, hnames, hrequired, hstart⟩ := h.nulls name hname
  obtain ⟨before, behind, hsplit⟩ := List.append_of_mem hf
  have hapart := h.apart
  have hcommutes := h.independent
  rw [names, hsplit, List.flatMap_append, List.flatMap_cons, hnames, List.nodup_append] at hapart
  rw [hsplit, List.pairwise_append] at hcommutes
  obtain ⟨-, hbehind, hbefore⟩ := hapart
  -- the other fields do not go by the name
  have hother {fs : List (Field σ)} (hfs : name ∉ fs.flatMap Field.names) :
      ∀ g ∈ fs, ∀ s, readNamed (Table.ofList (es ++ (name, .null) :: ds)).entries s g =
        readNamed (Table.ofList (es ++ ds)).entries s g := by
    intro g hg s
    refine readNamed_skip ?_ es ds .null s
    rw [Bool.eq_false_iff, Ne, Field.isNamed_iff]
    exact fun h => hfs (List.mem_flatMap.2 ⟨g, hg, h⟩)
  have hfirst := foldlM_congr (hother fun hin => hbefore name hin name List.mem_cons_self rfl)
  have hlast := foldlM_congr (hother (List.nodup_cons.1 hbehind).1)
  -- the field itself meets nothing, or the null
  have hnone : (es ++ ds).filter (fun e => f.isNamed e.1) = [] := by
    refine List.filter_eq_nil_iff.2 fun e he => ?_
    rw [Field.isNamed_iff, hnames, List.mem_singleton]
    exact hmissing e he
  have hnothing (t : σ) : readNamed (Table.ofList (es ++ ds)).entries t f = some t := by
    rw [readNamed, filter_isNamed, hnone, hrequired]
    rfl
  have hnull (t : σ) :
      readNamed (Table.ofList (es ++ (name, .null) :: ds)).entries t f = f.read .null t := by
    have hnamed : f.isNamed name = true :=
      Field.isNamed_iff.2 (hnames ▸ List.mem_singleton_self name)
    rw [List.filter_append, List.append_eq_nil_iff] at hnone
    rw [readNamed, filter_isNamed, List.filter_append, List.filter_cons, if_pos hnamed, hnone.1,
      hnone.2]
    rfl
  rw [readObject, readObject, hsplit, List.foldlM_append, List.foldlM_append, hfirst]
  cases hread : before.foldlM (readNamed (Table.ofList (es ++ ds)).entries) r.start with
  | none => rfl
  | some t =>
      have ht : f.read .null t = some t :=
        read_null_of_foldlM (fun g hg => hcommutes.2.2 g hg f List.mem_cons_self) hstart hread
      show (f :: behind).foldlM (readNamed (Table.ofList (es ++ (name, .null) :: ds)).entries) t =
        (f :: behind).foldlM (readNamed (Table.ofList (es ++ ds)).entries) t
      rw [List.foldlM_cons, List.foldlM_cons, hnull, ht, hnothing]
      exact hlast t

/-- What is read from a structure is what its fields read. -/
theorem readObject_fieldwise {es es' : List (String × Json)}
    (h : Fieldwise (fun name j j' => ∀ f ∈ r.fields, f.isNamed name = true → f.read j = f.read j')
      es es') : r.readObject es = r.readObject es' := by
  refine foldlM_congr (fun f hf s => ?_) r.start
  have hfound : Fieldwise (fun name j j' => ∀ f ∈ r.fields, f.isNamed name = true →
      f.read j = f.read j') (es.filter fun e => f.isNamed e.1)
      (es'.filter fun e => f.isNamed e.1) := by
    refine List.rel_filter ?_ h
    rintro e e' ⟨hname, -⟩
    simp [hname]
  have hnamed : ∀ e ∈ es.filter (fun e => f.isNamed e.1), f.isNamed e.1 = true :=
    fun e he => (List.mem_filter.1 he).2
  rw [readNamed, readNamed]
  generalize es.filter (fun e => f.isNamed e.1) = found,
    es'.filter (fun e => f.isNamed e.1) = found' at hfound hnamed ⊢
  cases hfound with
  | nil => rfl
  | @cons e e' _ _ he hrest =>
      cases hrest with
      | nil => exact congrFun (he.2 f hf (hnamed e List.mem_cons_self)) s
      | cons _ _ => rfl

/-- An object with one more field has a value if the field has one. -/
theorem alike_insert {β : Type} {read : Json → β} {depth : Nat} {w : Written} {name : String}
    {j : Json} (hw : w.value? depth = some j)
    (before behind : List (Option String × Written))
    (hread : ∀ es ds, Json.Written.fieldValues? depth before = some es →
      Json.Written.fieldValues? depth behind = some ds →
      read (Json.object (es ++ ds)) = read (Json.object (es ++ (name, j) :: ds))) :
    Alike read (Written.value? (depth + 1) (.obj (before ++ behind)))
      (Written.value? (depth + 1) (.obj (before ++ (some name, w) :: behind))) := by
  rw [value?_obj, value?_obj, fieldValues?_append, fieldValues?_append, Json.Written.fieldValues?,
    hw]
  cases hes : Json.Written.fieldValues? depth before with
  | none => exact .none
  | some es =>
      cases hds : Json.Written.fieldValues? depth behind with
      | none => exact .none
      | some ds => exact .some (hread es ds hes hds) (by simp [Json.object])

/-- All fields of a name tolerate a change under the name. -/
theorem Spells.alike_part {nullable : List String} {parts : List (String × Shape)}
    (h : r.Spells nullable parts) {f : Field σ} {name : String} (hf : f ∈ r.fields)
    (hname : name ∈ f.names) {depth : Nat} {w w' : Written}
    (hw : Edited (Shape.ofField parts name) depth w w') :
    Alike (fun j (g : {g // g ∈ r.fields ∧ name ∈ g.names}) => g.1.read j) (w.value? depth)
      (w'.value? depth) := by
  have hall : ∀ g ∈ r.fields, name ∈ g.names → Alike g.read (w.value? depth) (w'.value? depth) :=
    fun g hg hgname => h.parts g hg name hgname depth w w' hw
  have hone := hall f hf hname
  generalize w.value? depth = o, w'.value? depth = o' at hall hone ⊢
  cases hone with
  | none => exact .none
  | some _ hnull =>
      refine .some (funext fun g => ?_) hnull
      cases hall g.1 g.2.1 g.2.2 with
      | some hread _ => exact hread

/-- **STRUCTURES** may be spelt as their shape says. -/
theorem tolerates_codec {nullable : List String} {parts : List (String × Shape)}
    (h : r.Spells nullable parts) : Tolerates r.codec.read (r.shape nullable parts) := by
  intro depth v v' hv
  cases hv with
  | order hv =>
      rw [Json.Written.value?_reordered hv]
      exact .refl _
  | @unknown _ _ _ depth before behind name w hname hvalue =>
      obtain ⟨j, hj⟩ := Option.isSome_iff_exists.1 hvalue
      refine alike_insert hj before behind fun es ds _ _ => ?_
      rw [Json.object_eq, Json.object_eq]
      exact (readObject_unknown hname es ds j).symm
  | @null _ _ _ depth before behind name hname hmissing =>
      refine alike_insert (by rw [Json.Written.value?]) before behind fun es ds hes hds => ?_
      rw [Json.object_eq, Json.object_eq]
      refine (readObject_null h hname ?_).symm
      -- the names that are read are those that are written
      have hall := List.rel_append (Json.Written.fieldValues?_eq_some_iff.1 hes)
        (Json.Written.fieldValues?_eq_some_iff.1 hds)
      intro e he heq
      obtain ⟨f, hf, hfield⟩ := exists_of_mem_forall₂ hall he
      exact hmissing f hf (hfield.1.trans (congrArg some heq))
  | @field _ _ _ depth before behind name w w' hname hw =>
      obtain ⟨f, hf, hfname⟩ := List.mem_flatMap.1 hname
      refine Tolerates.alike_field r.codec.read
        (R := fun name j j' => ∀ f ∈ r.fields, f.isNamed name = true → f.read j = f.read j')
        (fun _ _ _ _ _ => rfl) (h.alike_part hf hfname hw) ?_
        (fun es es' hes => readObject_fieldwise hes) before behind
      rintro n j j' hn hread g hg hgname
      obtain rfl : name = n := Option.some.inj hn
      exact congrFun hread ⟨g, hg, Field.isNamed_iff.1 hgname⟩

/-- The same where nothing is inside of the fields. -/
theorem tolerates_plain {nullable : List String} (hapart : r.names.Nodup)
    (hindependent : r.fields.Pairwise Field.Commutes)
    (hnulls : ∀ name ∈ nullable, ∃ f ∈ r.fields, f.names = [name] ∧ f.required = false ∧
      f.read .null r.start = some r.start) :
    Tolerates r.codec.read (r.shape nullable []) :=
  tolerates_codec ⟨hapart, hindependent, fun f _ _ _ => .plain f.read, hnulls⟩

end Record

end Pitwall
