import Mathlib.Data.List.Perm.Basic
import Pitwall.Proofs.Json.Trees
import Pitwall.Proofs.Wire.Writing

/-!
# Known fields — what a record finds in an object

Of the fields of an object a record takes those that it knows:
**`Record.knownFields?_eq_some_iff`**. So it does not matter in which order they stand and what else
there is. An object is `Altered` if it holds some of the fields of a structure, in any order and
among others that are not known; each field of the record is then read if it was kept, and left as
it was if not: **`Record.ofWritten?_altered`**.
-/

namespace Pitwall

open Json (Written)
open Json.Written (IsField named)

variable {σ : Type} {r : Record σ}

namespace Record

/-- **KNOWN FIELDS** have values, and all fields have names. -/
theorem knownFields?_eq_some_iff {fields : List (Option String × Written)}
    {known : List (String × Json)} :
    r.knownFields? fields = some known ↔ (∀ f ∈ fields, f.1.isSome) ∧
      List.Forall₂ (IsField (Json.depthLimit - 1)) (fields.filter fun f => f.1.any r.knows)
        known := by
  induction fields generalizing known with
  | nil =>
      rw [knownFields?, List.filter_nil, List.forall₂_nil_left_iff]
      exact ⟨fun h => ⟨List.forall_mem_nil _, (Option.some.inj h).symm⟩, fun h => h.2 ▸ rfl⟩
  | cons f fields ih =>
      obtain ⟨name, w⟩ := f
      cases name with
      | none =>
          constructor
          · intro h
            cases h
          · intro h
            cases h.1 (none, w) List.mem_cons_self
      | some name =>
          rw [List.forall_mem_cons]
          cases hknown : r.knows name with
          | false =>
              have hskip : r.knownFields? ((some name, w) :: fields) = r.knownFields? fields := by
                simp [knownFields?, hknown]
              rw [hskip, ih, List.filter_cons_of_neg (by simp [hknown])]
              simp
          | true =>
              have htake : r.knownFields? ((some name, w) :: fields) =
                  (w.value? (Json.depthLimit - 1)).bind fun j =>
                    (r.knownFields? fields).bind fun known => some ((name, j) :: known) := by
                simp [knownFields?, hknown]
              rw [htake, List.filter_cons_of_pos (by simp [hknown]), List.forall₂_cons_left_iff]
              constructor
              · intro h
                obtain ⟨j, hj, hrest⟩ := Option.bind_eq_some_iff.1 h
                obtain ⟨rest, hfields, hcons⟩ := Option.bind_eq_some_iff.1 hrest
                obtain ⟨hnames, hvalues⟩ := ih.1 hfields
                exact ⟨⟨rfl, hnames⟩, (name, j), rest, ⟨rfl, hj⟩, hvalues,
                  (Option.some.inj hcons).symm⟩
              · rintro ⟨⟨-, hnames⟩, ⟨n, j⟩, rest, ⟨hn, hj⟩, hvalues, rfl⟩
                obtain rfl : name = n := Option.some.inj hn
                rw [show w.value? (Json.depthLimit - 1) = some j from hj, ih.2 ⟨hnames, hvalues⟩]
                rfl

/-- Fields that are not known are not known by any name. -/
theorem named_filter_knows {name : String} (h : r.knows name = true)
    (fields : List (Option String × Written)) :
    named name (fields.filter fun f => f.1.any r.knows) = named name fields := by
  rw [named, named, List.filter_filter]
  congr 1
  refine List.filter_congr fun f _ => ?_
  cases hf : f.1 == some name with
  | false => rw [Bool.false_and]
  | true => rw [eq_of_beq hf, Option.any_some, h, Bool.true_and]

/-- A field that goes by one name reads what stands under it. -/
theorem readNamed_eq_some_iff {object : List (String × Json)} {f : Field σ}
    (hf : f.aliases = []) {s t : σ} :
    readNamed object s f = some t ↔
      let values := (object.filter fun e => e.1 == f.name).map Prod.snd
      (values = [] ∧ f.required = false ∧ t = s) ∨ ∃ j, values = [j] ∧ f.read j s = some t := by
  have hnamed : (fun e : String × Json => f.isNamed e.1) = fun e => e.1 == f.name := by
    funext e
    rw [Field.isNamed, hf, List.contains_nil, Bool.or_false, Bool.beq_comm]
  rw [readNamed, hnamed]
  cases object.filter fun e => e.1 == f.name with
  | nil => cases f.required <;> simp [eq_comm]
  | cons e rest =>
      cases rest with
      | nil => simp
      | cons e' rest => simp

/-! ## Altered structures -/

/-- The object holds what was written under the names that are kept, with fields that the record
does not know, all in any order. -/
def Altered (r : Record σ) (s : σ) (keep : String → Bool)
    (fields : List (Option String × Written)) : Prop :=
  ∃ unknown : List (Option String × Written),
    (∀ f ∈ unknown, ∃ name, f.1 = some name ∧ r.knows name = false) ∧
    fields.Perm (Written.ofFields ((r.written s).filter fun e => keep e.1) ++ unknown)

/-- Settled values are those of their trees. -/
theorem forall₂_isField_ofFields {es : List (String × Json)} (h : ∀ e ∈ es, e.2.Settled) :
    List.Forall₂ (IsField (Json.depthLimit - 1)) (Written.ofFields es) es := by
  induction es with
  | nil => exact .nil
  | cons e es ih =>
      obtain ⟨he, hes⟩ := List.forall_mem_cons.1 h
      exact .cons ⟨rfl, he⟩ (ih hes)

/-- The known fields of an altered structure are those that were kept. -/
theorem Altered.exists_knownFields? {s : σ} {keep : String → Bool}
    {fields : List (Option String × Written)} (h : r.Altered s keep fields)
    (hvalue : ∀ f ∈ r.fields, (f.write s).Settled) :
    ∃ known, r.knownFields? fields = some known ∧
      known.Perm ((r.written s).filter fun e => keep e.1) := by
  obtain ⟨unknown, hunknown, hperm⟩ := h
  have hkept : ∀ e ∈ (r.written s).filter (fun e => keep e.1),
      r.knows e.1 = true ∧ e.2.Settled := by
    intro e he
    obtain ⟨f, hf, rfl⟩ := List.mem_map.1 (List.mem_filter.1 he).1
    exact ⟨List.any_eq_true.2 ⟨f, hf, isNamed_name f⟩, hvalue f hf⟩
  generalize (r.written s).filter (fun e => keep e.1) = kept at hperm hkept
  have hvalues := forall₂_isField_ofFields fun e he => (hkept e he).2
  have hnamed : ∀ f ∈ Written.ofFields kept, f.1.any r.knows = true := by
    intro f hf
    obtain ⟨e, he, hfield⟩ := exists_of_mem_forall₂ hvalues.flip hf
    rw [hfield.1, Option.any_some]
    exact (hkept e he).1
  -- nothing but what was kept is known among all the fields
  have hknown : (fields.filter fun f => f.1.any r.knows).Perm (Written.ofFields kept) := by
    have hnone : unknown.filter (fun f => f.1.any r.knows) = [] := by
      refine List.filter_eq_nil_iff.2 fun f hf => ?_
      obtain ⟨name, hname, hnot⟩ := hunknown f hf
      rw [hname, Option.any_some, hnot]
      exact Bool.false_ne_true
    have hfilter := hperm.filter fun f => f.1.any r.knows
    rwa [List.filter_append, List.filter_eq_self.2 hnamed, hnone, List.append_nil] at hfilter
  obtain ⟨known, hread, hsame⟩ := List.perm_comp_forall₂ hknown hvalues
  refine ⟨known, knownFields?_eq_some_iff.2 ⟨fun f hf => ?_, hread⟩, hsame⟩
  rcases List.mem_append.1 (hperm.mem_iff.1 hf) with hf | hf
  · exact Option.isSome_of_any (hnamed f hf)
  · obtain ⟨name, hname, -⟩ := hunknown f hf
    rw [hname]
    rfl

/-- A field that was kept is read, in whatever order; one that was not is left as it is. -/
theorem readNamed_kept (hnames : r.NamesApart) {f : Field σ} (hf : f ∈ r.fields)
    (hrequired : f.required = false) {s : σ} {keep : String → Bool} {known : List (String × Json)}
    (h : known.Perm ((r.written s).filter fun e => keep e.1)) (t : σ) :
    readNamed known t f = if keep f.name then f.read (f.write s) t else some t := by
  have hfound := h.filter fun e => f.isNamed e.1
  rw [List.filter_comm, filter_written hnames hf, List.filter_cons, List.filter_nil] at hfound
  by_cases hkeep : keep f.name = true
  · rw [if_pos hkeep, List.perm_singleton] at hfound
    rw [readNamed, hfound, if_pos hkeep]
  · rw [if_neg hkeep, List.perm_nil] at hfound
    rw [readNamed, hfound, if_neg hkeep, hrequired]
    rfl

/-- **ALTERED STRUCTURES** are read as what was kept of them; where nothing was kept, there are
the defaults. -/
theorem ofWritten?_altered (hnames : r.NamesApart) (hrequired : ∀ f ∈ r.fields, f.required = false)
    {s : σ} (hvalue : ∀ f ∈ r.fields, (f.write s).Settled) {keep : String → Bool}
    {fields : List (Option String × Written)} (h : r.Altered s keep fields) :
    r.ofWritten? (.obj fields) =
      r.fields.foldlM (fun t f => if keep f.name then f.read (f.write s) t else some t)
        r.start := by
  obtain ⟨known, hknown, hperm⟩ := h.exists_knownFields? hvalue
  rw [ofWritten?, hknown, Option.bind_eq_bind, Option.bind_some]
  exact foldlM_congr (fun f hf t => readNamed_kept hnames hf (hrequired f hf) hperm t) r.start

end Record

end Pitwall
