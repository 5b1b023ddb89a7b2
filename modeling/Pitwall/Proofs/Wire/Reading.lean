import Pitwall.Proofs.Json.Numeric
import Pitwall.Proofs.Json.Reordering
import Pitwall.Wire.Record

/-!
# What is read — properties that JSON passes on

JSON of some kind may have parts of that kind alone (`Json.Hereditary`). A codec then yields a
property from it if its parts do, and a record if every field keeps the property of its structure:
**`Record.yieldsFrom_codec`**.
-/

namespace Pitwall

theorem forall_of_mapM {α β : Type} {f : α → Option β} {P : β → Prop} {as : List α} {bs : List β}
    (hf : ∀ a ∈ as, ∀ b, f a = some b → P b) (h : as.mapM f = some bs) : ∀ b ∈ bs, P b := by
  induction as generalizing bs with
  | nil =>
      rw [← Option.some.inj h]
      exact List.forall_mem_nil _
  | cons a as ih =>
      rw [List.mapM_cons] at h
      obtain ⟨b, hb, hrest⟩ := Option.bind_eq_some_iff.1 h
      obtain ⟨bs', hbs, hcons⟩ := Option.bind_eq_some_iff.1 hrest
      rw [← Option.some.inj hcons]
      obtain ⟨hhead, htail⟩ := List.forall_mem_cons.1 hf
      exact List.forall_mem_cons.2 ⟨hhead b hb, ih htail hbs⟩

/-- The parts of such JSON are of the same kind. -/
structure Json.Hereditary (J : Json → Prop) : Prop where
  arr : ∀ items, J (.arr items) → ∀ j ∈ items, J j
  obj : ∀ fields, J (.obj fields) → ∀ e ∈ fields, J e.2

theorem Json.hereditary_numeric : Json.Hereditary Json.Numeric where
  arr := by
    rintro items ⟨⟩
    assumption
  obj := by
    rintro fields ⟨⟩
    assumption

theorem Json.hereditary_ordered : Json.Hereditary Json.Ordered where
  arr := by
    rintro items ⟨⟩
    assumption
  obj := by
    rintro fields ⟨⟩
    assumption

variable {J : Json → Prop}

/-- What the codec reads from such JSON has the property. -/
def Codec.YieldsFrom {α : Type} (J : Json → Prop) (c : Codec α) (P : α → Prop) : Prop :=
  ∀ j v, J j → c.read j = some v → P v

/-- Setting the field from such JSON keeps the property of the structure. -/
def Field.KeepsFrom {σ : Type} (J : Json → Prop) (f : Field σ) (P : σ → Prop) : Prop :=
  ∀ j s s', J j → P s → f.read j s = some s' → P s'

namespace Codec

variable {α β κ ν : Type}

theorem yieldsFrom_true (c : Codec α) : c.YieldsFrom J fun _ => True := fun _ _ _ _ => trivial

theorem YieldsFrom.map {c : Codec α} {P : α → Prop} (hc : c.YieldsFrom J P) {forth : α → β}
    (back : β → α) {Q : β → Prop} (hforth : ∀ v, P v → Q (forth v)) :
    (c.map forth back).YieldsFrom J Q := by
  intro j w hj h
  obtain ⟨v, hv, rfl⟩ := Option.map_eq_some_iff.1 h
  exact hforth v (hc j v hj hv)

theorem YieldsFrom.option {c : Codec α} {P : α → Prop} (hc : c.YieldsFrom J P) :
    c.option.YieldsFrom J fun o => ∀ v ∈ o, P v := by
  intro j o hj h
  simp only [Codec.option] at h
  split at h
  · rw [← Option.some.inj h]
    exact fun _ hv => nomatch hv
  · obtain ⟨v, hv, rfl⟩ := Option.map_eq_some_iff.1 h
    intro w hw
    rw [← Option.some.inj hw]
    exact hc j v hj hv

theorem YieldsFrom.nullAs {c : Codec α} {P : α → Prop} (hc : c.YieldsFrom J P) {value : α}
    (hv : P value) : (c.nullAs value).YieldsFrom J P := by
  intro j v hj h
  simp only [Codec.nullAs] at h
  split at h
  · rw [← Option.some.inj h]
    exact hv
  · exact hc j v hj h

theorem YieldsFrom.list (hJ : Json.Hereditary J) {c : Codec α} {P : α → Prop}
    (hc : c.YieldsFrom J P) : c.list.YieldsFrom J fun vs => ∀ v ∈ vs, P v := by
  intro j vs hj h
  cases j with
  | arr items => exact forall_of_mapM (fun i hi v hv => hc i v (hJ.arr items hj i hi) hv) h
  | _ => cases h

theorem YieldsFrom.entries (hJ : Json.Hereditary J) {c : Codec ν} {P : ν → Prop}
    (hc : c.YieldsFrom J P) (key : Key κ) :
    (entries key c).YieldsFrom J fun es => ∀ e ∈ es, P e.2 := by
  intro j es hj h
  cases j with
  | obj fields =>
      refine forall_of_mapM (fun field hfield e he => ?_) h
      obtain ⟨k, -, hvalue⟩ := Option.bind_eq_some_iff.1 he
      obtain ⟨v, hv, hpair⟩ := Option.bind_eq_some_iff.1 hvalue
      rw [← Option.some.inj hpair]
      exact hc field.2 v (hJ.obj fields hj field hfield) hv
  | _ => cases h

theorem YieldsFrom.keyed [DecidableEq κ] (hJ : Json.Hereditary J) {c : Codec ν} {P : ν → Prop}
    (hc : c.YieldsFrom J P) (key : Key κ) :
    (keyed key c).YieldsFrom J fun m => ∀ v ∈ m.values, P v := by
  refine (hc.entries hJ key).map _ fun es hes v hv => ?_
  obtain ⟨k, hk⟩ := Keyed.mem_values_iff.1 hv
  exact hes (k, v) (Keyed.mem_of_get?_ofList hk)

theorem YieldsFrom.table [Ord κ] [Std.TransOrd κ] [Std.LawfulEqOrd κ] (hJ : Json.Hereditary J)
    {c : Codec ν} {P : ν → Prop} (hc : c.YieldsFrom J P) (key : Key κ) :
    (table key c).YieldsFrom J fun t => ∀ v ∈ t.values, P v := by
  refine (hc.entries hJ key).map _ fun es hes v hv => ?_
  obtain ⟨e, he, rfl⟩ := List.mem_map.1 hv
  exact hes e (Table.mem_of_mem_entries_ofList he)

end Codec

namespace Field

variable {σ α : Type}

theorem keepsFrom_of {name : String} {c : Codec α} {get : σ → α} {set : σ → α → σ} {Q : α → Prop}
    (hc : c.YieldsFrom J Q) {P : σ → Prop} (hset : ∀ s v, P s → Q v → P (set s v)) :
    (Field.of name c get set).KeepsFrom J P := by
  intro j s s' hj hs h
  obtain ⟨v, hv, rfl⟩ := Option.map_eq_some_iff.1 h
  exact hset s v hs (hc j v hj hv)

/-- Fields that the property does not look at. -/
theorem keepsFrom_of_any {name : String} {c : Codec α} {get : σ → α} {set : σ → α → σ}
    {P : σ → Prop} (hset : ∀ s v, P s → P (set s v)) : (Field.of name c get set).KeepsFrom J P :=
  keepsFrom_of c.yieldsFrom_true fun s v hs _ => hset s v hs

end Field

namespace Record

variable {σ : Type} {r : Record σ} {P : σ → Prop}

theorem keepsFrom_readNamed {object : List (String × Json)} (hobject : ∀ e ∈ object, J e.2)
    {f : Field σ} (hf : f.KeepsFrom J P) {s s' : σ} (hs : P s)
    (h : readNamed object s f = some s') : P s' := by
  rw [readNamed] at h
  split at h
  · split at h
    · cases h
    · rw [← Option.some.inj h]
      exact hs
  · next e he =>
    -- the one field of the object that goes by a name of `f`
    have hmem : e ∈ object := (List.mem_filter.1 (he ▸ List.mem_singleton_self e)).1
    exact hf e.2 s s' (hobject e hmem) hs h
  · cases h

theorem holds_of_readObject (hstart : P r.start) (hfields : ∀ f ∈ r.fields, f.KeepsFrom J P)
    {object : List (String × Json)} (hobject : ∀ e ∈ object, J e.2) {s : σ}
    (h : r.readObject object = some s) : P s :=
  foldlM_invariant (fun _ f _ hf hs h => keepsFrom_readNamed hobject (hfields f hf) hs h) hstart h

theorem holds_of_readItems {fields : List (Field σ)} (hfields : ∀ f ∈ fields, f.KeepsFrom J P)
    {items : List Json} (hitems : ∀ j ∈ items, J j) {s s' : σ} (hs : P s)
    (h : readItems fields items s = some s') : P s' := by
  induction fields generalizing items s with
  | nil =>
      cases items with
      | nil =>
          rw [← Option.some.inj h]
          exact hs
      | cons j js => cases h
  | cons f fs ih =>
      obtain ⟨hf, hfs⟩ := List.forall_mem_cons.1 hfields
      cases items with
      | nil =>
          rw [readItems] at h
          split at h
          · cases h
          · exact ih hfs hitems hs h
      | cons j js =>
          obtain ⟨hj, hjs⟩ := List.forall_mem_cons.1 hitems
          obtain ⟨t, ht, hrest⟩ := Option.bind_eq_some_iff.1 h
          exact ih hfs hjs (hf j s t hj hs ht) hrest

/-- **RECORDS**: a property of the defaults that every field keeps is one of all that is read. -/
theorem yieldsFrom_codec (hJ : Json.Hereditary J) (hstart : P r.start)
    (hfields : ∀ f ∈ r.fields, f.KeepsFrom J P) : r.codec.YieldsFrom J P := by
  intro j s hj h
  cases j with
  | obj fields => exact holds_of_readObject hstart hfields (hJ.obj fields hj) h
  | arr items => exact holds_of_readItems hfields (hJ.arr items hj) hstart h
  | _ => cases h

end Record

end Pitwall
