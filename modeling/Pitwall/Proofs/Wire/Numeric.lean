import Pitwall.Proofs.Wire.Reading

/-!
# Reading numeric JSON — what codecs and records make of it

A codec `Yields` a property if all that it reads from numeric JSON has it. The properties of parts
add up to those of whole collections, and of whole records as soon as every field keeps the property
of its record: **`Record.yields_codec`**, and **`Record.of_ofText?`** from a text.
-/

namespace Pitwall

/-- What the codec reads from numeric JSON has the property. -/
def Codec.Yields {α : Type} (c : Codec α) (P : α → Prop) : Prop :=
  ∀ j v, j.Numeric → c.read j = some v → P v

/-- Setting the field from numeric JSON keeps the property of the structure. -/
def Field.Keeps {σ : Type} (f : Field σ) (P : σ → Prop) : Prop :=
  ∀ j s s', j.Numeric → P s → f.read j s = some s' → P s'

namespace Codec

variable {α β κ ν : Type}

theorem yields_json : json.Yields Json.Numeric := by
  intro j v hj h
  rw [← Option.some.inj h]
  exact hj

theorem yields_single : single.Yields Binary.IsNumber := by
  intro j v hj h
  cases hj with
  | num hn =>
      rename_i n
      cases n with
      | int i =>
          rw [← Option.some.inj h]
          exact Binary.isNumber_ofInt (by decide) i
      | float x =>
          rw [← Option.some.inj h]
          exact Binary.isNumber_convert (by decide) hn
  | _ => cases h

theorem yields_double : double.Yields Binary.IsNumber := by
  intro j v hj h
  cases hj with
  | num hn =>
      rename_i n
      cases n with
      | int i =>
          rw [← Option.some.inj h]
          exact Binary.isNumber_ofInt (by decide) i
      | float x =>
          rw [← Option.some.inj h]
          exact hn
  | _ => cases h

theorem Yields.map {c : Codec α} {P : α → Prop} (hc : c.Yields P) {forth : α → β} (back : β → α)
    {Q : β → Prop} (hforth : ∀ v, P v → Q (forth v)) : (c.map forth back).Yields Q :=
  YieldsFrom.map hc back hforth

theorem Yields.option {c : Codec α} {P : α → Prop} (hc : c.Yields P) :
    c.option.Yields fun o => ∀ v ∈ o, P v := YieldsFrom.option hc

theorem Yields.nullAs {c : Codec α} {P : α → Prop} (hc : c.Yields P) {value : α} (hv : P value) :
    (c.nullAs value).Yields P := YieldsFrom.nullAs hc hv

theorem Yields.list {c : Codec α} {P : α → Prop} (hc : c.Yields P) :
    c.list.Yields fun vs => ∀ v ∈ vs, P v := YieldsFrom.list Json.hereditary_numeric hc

theorem Yields.keyed [DecidableEq κ] {c : Codec ν} {P : ν → Prop} (hc : c.Yields P)
    (key : Key κ) : (keyed key c).Yields fun m => ∀ v ∈ m.values, P v :=
  YieldsFrom.keyed Json.hereditary_numeric hc key

theorem Yields.table [Ord κ] [Std.TransOrd κ] [Std.LawfulEqOrd κ] {c : Codec ν} {P : ν → Prop}
    (hc : c.Yields P) (key : Key κ) : (table key c).Yields fun t => ∀ v ∈ t.values, P v :=
  YieldsFrom.table Json.hereditary_numeric hc key

end Codec

namespace Field

variable {σ α : Type}

theorem keeps_of {name : String} {c : Codec α} {get : σ → α} {set : σ → α → σ} {Q : α → Prop}
    (hc : c.Yields Q) {P : σ → Prop} (hset : ∀ s v, P s → Q v → P (set s v)) :
    (Field.of name c get set).Keeps P := keepsFrom_of hc hset

/-- Fields that the property does not look at. -/
theorem keeps_of_any {name : String} {c : Codec α} {get : σ → α} {set : σ → α → σ} {P : σ → Prop}
    (hset : ∀ s v, P s → P (set s v)) : (Field.of name c get set).Keeps P := keepsFrom_of_any hset

theorem Keeps.orNamed {f : Field σ} {P : σ → Prop} (h : f.Keeps P) (other : String) :
    (f.orNamed other).Keeps P := h

theorem Keeps.needed {f : Field σ} {P : σ → Prop} (h : f.Keeps P) : f.needed.Keeps P := h

end Field

namespace Record

variable {σ : Type} {r : Record σ} {P : σ → Prop}

/-- **RECORDS**: a property of the defaults that every field keeps is one of all that is read. -/
theorem yields_codec (hstart : P r.start) (hfields : ∀ f ∈ r.fields, f.Keeps P) :
    r.codec.Yields P := yieldsFrom_codec Json.hereditary_numeric hstart hfields

theorem numeric_of_knownFields? {object : List (Option String × Json.Written)}
    (hobject : ∀ e ∈ object, e.2.Numeric) {known : List (String × Json)}
    (h : r.knownFields? object = some known) : ∀ e ∈ known, e.2.Numeric := by
  induction object generalizing known with
  | nil =>
      rw [← Option.some.inj h]
      exact List.forall_mem_nil _
  | cons field object ih =>
      obtain ⟨name, w⟩ := field
      obtain ⟨hw, hobject'⟩ := List.forall_mem_cons.1 hobject
      obtain ⟨key, -, hkey⟩ := Option.bind_eq_some_iff.1 h
      split at hkey
      · obtain ⟨j, hj, hrest⟩ := Option.bind_eq_some_iff.1 hkey
        obtain ⟨known', hknown, hcons⟩ := Option.bind_eq_some_iff.1 hrest
        rw [← Option.some.inj hcons]
        exact List.forall_mem_cons.2 ⟨Json.Written.numeric_of_value? hw hj, ih hobject' hknown⟩
      · exact ih hobject' hkey

/-- What is read from a text has such a property as well. -/
theorem of_ofText? (hstart : P r.start) (hfields : ∀ f ∈ r.fields, f.Keeps P) {text : String}
    {s : σ} (h : r.ofText? text = some s) : P s := by
  obtain ⟨w, hread, hw⟩ := Option.bind_eq_some_iff.1 h
  cases Json.Written.numeric_of_read? hread with
  | obj hobject =>
      obtain ⟨known, hknown, hs⟩ := Option.bind_eq_some_iff.1 hw
      exact holds_of_readObject hstart hfields (numeric_of_knownFields? hobject hknown) hs
  | arr hitems =>
      obtain ⟨items, hvalues, hs⟩ := Option.bind_eq_some_iff.1 hw
      exact holds_of_readItems hfields (Json.Written.numeric_of_values? hitems hvalues) hstart hs
  | _ => cases hw

end Record

end Pitwall
