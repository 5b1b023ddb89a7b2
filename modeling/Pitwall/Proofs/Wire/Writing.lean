import Pitwall.Proofs.Data.Lookup
import Pitwall.Proofs.Json.Reading
import Pitwall.Proofs.Time.Rfc3339
import Pitwall.Wire.Record

/-!
# Reading what was written — codecs and records

A codec is `Faithful` if it reads every value back from the JSON that it writes for it. A record
whose fields do not share names meets each field with what was written for it
(**`Record.readObject_write`**), and from the text of a structure it reads what it reads from its
JSON (**`Record.ofText?_write`**).
-/

namespace Pitwall

variable {α σ : Type}

/-- Reading undoes writing. -/
def Codec.Faithful (c : Codec α) : Prop := ∀ v, c.read (c.write v) = some v

theorem Codec.faithful_string : string.Faithful := fun _ => rfl

theorem Codec.faithful_instant : instant.Faithful := Instant.read?_text

/-- A field of a faithful codec is set to what was written. -/
theorem Field.read_write_of {c : Codec α} (hc : c.Faithful) (name : String) (get : σ → α)
    (set : σ → α → σ) (s t : σ) :
    (Field.of name c get set).read ((Field.of name c get set).write s) t =
      some (set t (get s)) := by
  show (c.read (c.write (get s))).map (set t) = some (set t (get s))
  rw [hc, Option.map_some]

/-- Steps that agree on all that is in a list lead to the same. -/
theorem foldlM_congr {f g : σ → α → Option σ} {as : List α} (h : ∀ a ∈ as, ∀ s, f s a = g s a)
    (s : σ) : as.foldlM f s = as.foldlM g s := by
  induction as generalizing s with
  | nil => rfl
  | cons a as ih =>
      obtain ⟨ha, has⟩ := List.forall_mem_cons.1 h
      rw [List.foldlM_cons, List.foldlM_cons, ha]
      exact bind_congr (ih has)

/-- As the field of a structure, the value is what its own text says. -/
def Json.Settled (j : Json) : Prop := (Written.ofJson j).value? (depthLimit - 1) = some j

theorem Json.settled_str (s : String) : (Json.str s).Settled := rfl

namespace Record

variable {r : Record σ}

/-- The fields of a structure as they are written. -/
def written (r : Record σ) (s : σ) : List (String × Json) :=
  r.fields.map fun f => (f.name, f.write s)

/-- No field goes by the name of another one. -/
def NamesApart (r : Record σ) : Prop :=
  r.fields.Pairwise fun f g => f.isNamed g.name = false ∧ g.isNamed f.name = false

instance (r : Record σ) : Decidable r.NamesApart :=
  inferInstanceAs (Decidable (r.fields.Pairwise fun f g =>
    f.isNamed g.name = false ∧ g.isNamed f.name = false))

theorem isNamed_name (f : Field σ) : f.isNamed f.name = true := by
  rw [Field.isNamed, beq_self_eq_true, Bool.true_or]

/-- The fields of an object that a field goes by. -/
theorem filter_isNamed (f : Field σ) (es : List (String × Json)) :
    (Table.ofList es).entries.filter (fun e => f.isNamed e.1) =
      (Table.ofList (es.filter fun e => f.isNamed e.1)).entries :=
  congrArg Table.entries (Table.filter_ofList es f.isNamed)

/-- What is written for a field is all that it goes by. -/
theorem filter_written (hnames : r.NamesApart) {f : Field σ} (hf : f ∈ r.fields) (s : σ) :
    (r.written s).filter (fun e => f.isNamed e.1) = [(f.name, f.write s)] := by
  obtain ⟨before, behind, hsplit⟩ := List.append_of_mem hf
  rw [NamesApart, hsplit, List.pairwise_append, List.pairwise_cons] at hnames
  obtain ⟨-, ⟨hbehind, -⟩, hbefore⟩ := hnames
  have hnone {fs : List (Field σ)} (h : ∀ g ∈ fs, f.isNamed g.name = false) :
      (fs.map fun g => (g.name, g.write s)).filter (fun e => f.isNamed e.1) = [] := by
    rw [List.filter_eq_nil_iff]
    rintro e he
    obtain ⟨g, hg, rfl⟩ := List.mem_map.1 he
    simp [h g hg]
  rw [written, hsplit, List.map_append, List.map_cons, List.filter_append,
    hnone fun g hg => (hbefore g hg f List.mem_cons_self).2, List.filter_cons,
    if_pos (isNamed_name f), hnone fun g hg => (hbehind g hg).1, List.nil_append]

/-- A field finds what was written for it. -/
theorem readNamed_written (hnames : r.NamesApart) {f : Field σ} (hf : f ∈ r.fields) (s t : σ) :
    readNamed (r.written s) t f = f.read (f.write s) t := by
  rw [readNamed, filter_written hnames hf]

/-- **EVERY FIELD IS MET** with what was written for it, in order. -/
theorem readObject_write (hnames : r.NamesApart) (s : σ) :
    r.readObject (r.written s) = r.fields.foldlM (fun t f => f.read (f.write s) t) r.start :=
  foldlM_congr (fun _ hf t => readNamed_written hnames hf s t) r.start

/-- The fields of a structure are known. -/
theorem knownFields?_written {s : σ} (hvalue : ∀ f ∈ r.fields, (f.write s).Settled) :
    r.knownFields? (Json.Written.ofFields (r.written s)) = some (r.written s) := by
  have hknown : ∀ fs ⊆ r.fields,
      r.knownFields? (Json.Written.ofFields (fs.map fun f => (f.name, f.write s))) =
        some (fs.map fun f => (f.name, f.write s)) := by
    intro fs hfs
    induction fs with
    | nil => rfl
    | cons f fs ih =>
        obtain ⟨hf, hfs⟩ := List.cons_subset.1 hfs
        have hname : r.knows f.name = true := List.any_eq_true.2 ⟨f, hf, isNamed_name f⟩
        have hread := hvalue f hf
        rw [Json.Settled] at hread
        simp [Json.Written.ofFields, knownFields?, hname, hread, ih hfs]
  exact hknown r.fields (List.Subset.refl _)

/-- **TEXTS** of structures say what their JSON says. -/
theorem ofText?_write {s : σ} (hlegible : ∀ f ∈ r.fields, (f.write s).Legible)
    (hvalue : ∀ f ∈ r.fields, (f.write s).Settled) :
    r.ofText? (String.ofList (r.codec.write s).chars) = r.readObject (r.written s) := by
  have hobject : (r.codec.write s).Legible := by
    refine .obj fun e he => ?_
    obtain ⟨f, hf, rfl⟩ := List.mem_map.1 he
    exact hlegible f hf
  rw [ofText?, String.toList_ofList, Json.Written.read?_chars hobject]
  show (r.knownFields? (Json.Written.ofFields (r.written s))).bind r.readObject = _
  rw [knownFields?_written hvalue, Option.bind_some]

end Record

end Pitwall
