import Pitwall.Proofs.Json.Parsing
import Pitwall.Proofs.Wire.Exact
import Pitwall.Proofs.Wire.Reading

/-!
# Returning values — written, printed, parsed and read

A value `ReadsBack` if it is read from the text that is printed for it. Where it is a part of
another one it `Returns` from what its JSON becomes within that text, at a depth where containers
may nest so deep. Words, texts and instants return; lists, options and maps return if what is in
them does, and a structure if its fields do: **`Record.returns`**.

Numbers with a fraction are the exception. Whether their texts read back is a matter of each number,
and all that is shown of them is that then they return: **`Codec.returns_double`**.
-/

namespace Pitwall

open Json (Becomes)

/-- The value is read from the text that is printed for it. -/
def Codec.ReadsBack {α : Type} (c : Codec α) (v : α) : Prop :=
  (Json.parse (c.write v).compact).bind c.read = some v

instance {α : Type} [DecidableEq α] (c : Codec α) (v : α) : Decidable (c.ReadsBack v) :=
  inferInstanceAs (Decidable (_ = some v))

/-- The value is read from what its JSON becomes within a text. -/
def Codec.Returns {α : Type} (c : Codec α) (depth : Nat) (v : α) : Prop :=
  ∃ j, Becomes depth (c.write v) j ∧ c.read j = some v

namespace Codec

variable {α β κ ν : Type} {depth : Nat}

/-- What returns at the top reads back. -/
theorem Returns.readsBack {c : Codec α} {v : α} (h : c.Returns Json.depthLimit v) :
    c.ReadsBack v := by
  obtain ⟨j, hj, hread⟩ := h
  rw [ReadsBack, Json.parse_compact hj, Option.bind_some, hread]

/-- JSON that stays what it is returns its value. -/
theorem returns_of_faithful {c : Codec α} (hc : c.Faithful) {v : α}
    (h : Becomes depth (c.write v) (c.write v)) : c.Returns depth v := ⟨_, h, hc v⟩

theorem Returns.map {c : Codec α} {forth : α → β} {back : β → α} {w : β}
    (h : c.Returns depth (back w)) (hw : forth (back w) = w) :
    (c.map forth back).Returns depth w := by
  obtain ⟨j, hj, hread⟩ := h
  refine ⟨j, hj, ?_⟩
  show (c.read j).map forth = some w
  rw [hread, Option.map_some, hw]

/-! ## Plain values -/

theorem returns_string (s : String) : string.Returns depth s :=
  returns_of_faithful faithful_string (Json.becomes_str s)

theorem returns_anyText (s : String) : anyText.Returns depth s :=
  returns_of_faithful (fun _ => rfl) (Json.becomes_str s)

theorem returns_instant (t : Instant) : instant.Returns depth t :=
  returns_of_faithful faithful_instant (Json.becomes_str t.text)

theorem returns_bool (b : Bool) : bool.Returns depth b :=
  returns_of_faithful exact_bool.faithful (Json.becomes_bool b)

theorem returns_oneOf {names : List (String × α)} {nameOf : α → String} {v : α}
    (h : names.lookup (nameOf v) = some v) : (oneOf names nameOf).Returns depth v :=
  ⟨.str (nameOf v), Json.becomes_str _, h⟩

theorem returns_uint8 (n : UInt8) : uint8.Returns depth n := by
  have hlt := n.toNat_lt
  exact returns_of_faithful exact_uint8.faithful (Json.becomes_int (by omega) (by omega))

theorem returns_uint16 (n : UInt16) : uint16.Returns depth n := by
  have hlt := n.toNat_lt
  exact returns_of_faithful exact_uint16.faithful (Json.becomes_int (by omega) (by omega))

theorem returns_uint32 (n : UInt32) : uint32.Returns depth n := by
  have hlt := n.toNat_lt
  exact returns_of_faithful exact_uint32.faithful (Json.becomes_int (by omega) (by omega))

theorem returns_int32 (n : Int32) : int32.Returns depth n := by
  have hlow : -2147483648 ≤ n.toInt := n.minValue_le_toInt
  have hhigh : n.toInt ≤ 2147483647 := n.toInt_le
  exact returns_of_faithful exact_int32.faithful (Json.becomes_int (by omega) (by omega))

theorem returns_int64 (n : Int64) : int64.Returns depth n := by
  have hlow : -9223372036854775808 ≤ n.toInt := n.minValue_le_toInt
  have hhigh : n.toInt ≤ 9223372036854775807 := n.toInt_le
  exact returns_of_faithful exact_int64.faithful (Json.becomes_int hlow (by omega))

/-! ## Numbers with a fraction -/

/-- A codec that writes a double and reads numbers alone: what reads back returns. -/
theorem returns_of_readsBack {c : Codec α} {v : α} {x : Binary64}
    (hwrite : c.write v = double.write x) (hread : ∀ j v, c.read j = some v → ∃ n, j = .num n)
    (h : c.ReadsBack v) : c.Returns depth v := by
  obtain ⟨j, hparse, hj⟩ := Option.bind_eq_some_iff.1 h
  obtain ⟨n, rfl⟩ := hread j v hj
  rw [hwrite] at hparse
  cases hx : x.isFinite with
  | true =>
      have hnum : double.write x = .num (.float x) := by simp [double, hx]
      rw [hnum] at hparse hwrite
      obtain ⟨hreadable, hsaid⟩ := Json.Number.readable_of_parse hx hparse
      refine ⟨.num n, ?_, hj⟩
      rw [hwrite, ← hsaid]
      exact Json.becomes_num hreadable
  | false =>
      -- what is not finite is written as `null`
      have hnull : double.write x = .null := by simp [double, hx]
      have hparsed : Json.parse (Json.compact .null) = some .null :=
        Json.parse_compact Json.becomes_null
      rw [hnull, hparsed] at hparse
      cases hparse

/-- **DOUBLES** that read back return. -/
theorem returns_double {x : Binary64} (h : double.ReadsBack x) : double.Returns depth x := by
  refine returns_of_readsBack rfl (fun j v hj => ?_) h
  cases j with
  | num n => exact ⟨n, rfl⟩
  | _ => cases hj

theorem returns_single {x : Binary32} (h : single.ReadsBack x) : single.Returns depth x := by
  refine returns_of_readsBack rfl (fun j v hj => ?_) h
  cases j with
  | num n => exact ⟨n, rfl⟩
  | _ => cases hj

/-! ## What may be absent -/

theorem Returns.option {c : Codec α} (hnull : c.read .null = none) {o : Option α}
    (h : ∀ v ∈ o, c.Returns depth v) : c.option.Returns depth o := by
  cases o with
  | none => exact ⟨.null, Json.becomes_null, rfl⟩
  | some v =>
      obtain ⟨j, hj, hread⟩ := h v rfl
      have hsome : c.option.read j = (c.read j).map some := by
        cases j with
        | null => rw [hnull] at hread; cases hread
        | _ => rfl
      exact ⟨j, hj, by rw [hsome, hread, Option.map_some]⟩

theorem Returns.nullAs {c : Codec α} (hnull : c.read .null = none) {value v : α}
    (h : c.Returns depth v) : (c.nullAs value).Returns depth v := by
  obtain ⟨j, hj, hread⟩ := h
  have hsame : (c.nullAs value).read j = c.read j := by
    cases j with
    | null => rw [hnull] at hread; cases hread
    | _ => rfl
  exact ⟨j, hj, hsame.trans hread⟩

/-! ## Collections -/

/-- **LISTS** return item by item. -/
theorem Returns.list {c : Codec α} {vs : List α} (h : ∀ v ∈ vs, c.Returns depth v) :
    c.list.Returns (depth + 1) vs := by
  obtain ⟨js, hjs⟩ := exists_forall₂ h
  refine ⟨.arr js, .arr ?_, ?_⟩
  · rw [List.forall₂_map_left_iff]
    exact hjs.imp fun _ _ hj => hj.1
  · have hflip : List.Forall₂ (fun j v => c.read j = some v) js vs :=
      .flip (hjs.imp fun _ _ hj => hj.2)
    exact mapM_eq_some_iff.2 hflip

/-- Objects are read as entries field by field. -/
theorem read_entries_iff {key : Key κ} {c : Codec ν} {fields : List (String × Json)}
    {es : List (κ × ν)} :
    (entries key c).read (.obj fields) = some es ↔
      List.Forall₂ (fun field e => key.read field.1 = some e.1 ∧ c.read field.2 = some e.2)
        fields es := by
  have hentry (field : String × Json) (e : κ × ν) :
      (do return (← key.read field.1, ← c.read field.2)) = some e ↔
        key.read field.1 = some e.1 ∧ c.read field.2 = some e.2 := by
    obtain ⟨k, v⟩ := e
    cases key.read field.1 <;> cases c.read field.2 <;> simp
  show fields.mapM _ = some es ↔ _
  rw [mapM_eq_some_iff]
  exact ⟨fun h => h.imp fun _ _ he => (hentry _ _).1 he,
    fun h => h.imp fun _ _ he => (hentry _ _).2 he⟩

/-- The fields that entries become, under the names of their keys. -/
theorem exists_fields {key : Key κ} (hkey : key.Exact) {c : Codec ν} {es : List (κ × ν)}
    (h : ∀ e ∈ es, c.Returns depth e.2) :
    ∃ fields, fields.map Prod.fst = (es.map Prod.fst).map key.write ∧
      Becomes (depth + 1) ((entries key c).write es) (Json.object fields) ∧
      (entries key c).read (.obj fields) = some es := by
  have hfield : ∀ e ∈ es, ∃ field : String × Json, field.1 = key.write e.1 ∧
      Becomes depth (c.write e.2) field.2 ∧ c.read field.2 = some e.2 := by
    intro e he
    obtain ⟨j, hj, hread⟩ := h e he
    exact ⟨(key.write e.1, j), rfl, hj, hread⟩
  obtain ⟨fields, hfields⟩ := exists_forall₂ hfield
  refine ⟨fields, ?_, .obj ?_, read_entries_iff.2 (.flip ?_)⟩
  · rw [List.map_map, ← List.forall₂_eq_eq_eq, List.forall₂_map_left_iff,
      List.forall₂_map_right_iff]
    exact .flip (hfields.imp fun _ _ hf => hf.1)
  · rw [List.forall₂_map_left_iff]
    exact hfields.imp fun _ _ hf => ⟨hf.1, hf.2.1⟩
  · exact hfields.imp fun e field hf => ⟨(hkey _ _).2 hf.1, hf.2.2⟩

/-- **TABLES** return value by value. -/
theorem Returns.table [Ord κ] [Std.TransOrd κ] [Std.LawfulEqOrd κ] [DecidableEq κ] {key : Key κ}
    (hkey : key.Exact) {c : Codec ν} {t : Table κ ν} (h : ∀ v ∈ t.values, c.Returns depth v) :
    (table key c).Returns (depth + 1) t := by
  obtain ⟨fields, hnames, hbecomes, hread⟩ :=
    exists_fields hkey fun e he => h e.2 (List.mem_map_of_mem he)
  refine ⟨_, hbecomes, ?_⟩
  -- the names come in another order than the keys, and the table puts them right
  have hdistinct : (fields.map Prod.fst).Nodup := by
    rw [hnames]
    exact t.nodup_keys.map fun _ _ => hkey.write_inj
  have hperm := Table.entries_ofList_perm hdistinct
  obtain ⟨es, hes, hsame⟩ := List.perm_comp_forall₂ hperm (read_entries_iff.1 hread)
  rw [Json.object_eq]
  show ((entries key c).read _).map Table.ofList = some t
  rw [read_entries_iff.2 hes, Option.map_some, ← Table.ofList_perm hsame.symm t.nodup_keys,
    Table.ofList_entries]

/-- The names of the keys ascend. -/
def Key.Ascending [DecidableEq κ] (key : Key κ) (m : Keyed κ ν) : Prop :=
  (m.keys.map key.write).Pairwise fun a b => compare a b = .lt

theorem Key.ascending_empty [DecidableEq κ] (key : Key κ) : key.Ascending (.empty : Keyed κ ν) :=
  List.Pairwise.nil

/-- **KEYED LISTS** in the order of their names return value by value. -/
theorem Returns.keyed [DecidableEq κ] {key : Key κ} (hkey : key.Exact) {c : Codec ν}
    {m : Keyed κ ν} (hascending : key.Ascending m) (h : ∀ v ∈ m.values, c.Returns depth v) :
    (keyed key c).Returns (depth + 1) m := by
  obtain ⟨fields, hnames, hbecomes, hread⟩ :=
    exists_fields hkey fun e he => h e.2 (List.mem_map_of_mem he)
  refine ⟨_, hbecomes, ?_⟩
  have hordered : (fields.map Prod.fst).Pairwise fun a b => compare a b = .lt := by
    rw [hnames]
    exact hascending
  have hsorted : (Table.ofList fields).entries = fields :=
    congrArg Table.entries (Table.ofList_entries ⟨fields, hordered⟩)
  rw [Json.object_eq, hsorted]
  show ((entries key c).read (.obj fields)).map Keyed.ofList = some m
  rw [hread, Option.map_some]
  exact congrArg some (Keyed.ext (Keyed.entries_ofList m.distinct))

/-- **IN ORDER**: what is read from the value of a text has its keys in the order of their names. -/
theorem yieldsFrom_keyed [DecidableEq κ] {key : Key κ} (hkey : key.Exact) (c : Codec ν) :
    (keyed key c).YieldsFrom Json.Ordered key.Ascending := by
  intro j m hj h
  cases hj with
  | @obj fields hordered _ =>
      obtain ⟨es, hes, rfl⟩ := Option.map_eq_some_iff.1 h
      have hnames : (es.map Prod.fst).map key.write = fields.map Prod.fst := by
        rw [List.map_map, ← List.forall₂_eq_eq_eq, List.forall₂_map_left_iff,
          List.forall₂_map_right_iff]
        exact .flip ((read_entries_iff.1 hes).imp fun _ _ he => ((hkey _ _).1 he.1).symm)
      rw [← hnames] at hordered
      have hdistinct : (es.map Prod.fst).Nodup := by
        refine .of_map key.write (hordered.imp fun hlt heq => ?_)
        rw [heq, Std.ReflOrd.compare_self] at hlt
        cases hlt
      rw [Key.Ascending, Keyed.keys, Keyed.entries_ofList hdistinct]
      exact hordered
  | _ => cases h

end Codec

/-! ## Records -/

namespace Record

variable {σ α : Type} {depth : Nat}

/-- Reading the fields one after the other, from what they become within a text, leads from `t` to
the structure that was written. -/
def Fills (depth : Nat) (s : σ) : List (Field σ) → σ → Prop
  | [], t => t = s
  | f :: fs, t => ∃ j t', Becomes depth (f.write s) j ∧ f.read j t = some t' ∧ Fills depth s fs t'

theorem Fills.nil {s t : σ} (h : t = s) : Fills depth s [] t := h

theorem Fills.of {name : String} {c : Codec α} {get : σ → α} {set : σ → α → σ} {s t : σ}
    {fs : List (Field σ)} (hc : c.Returns depth (get s)) (h : Fills depth s fs (set t (get s))) :
    Fills depth s (.of name c get set :: fs) t := by
  obtain ⟨j, hj, hread⟩ := hc
  refine ⟨j, _, hj, ?_, h⟩
  show (c.read j).map (set t) = some (set t (get s))
  rw [hread, Option.map_some]

theorem Fills.orNamed {f : Field σ} {s t : σ} {fs : List (Field σ)} {other : String}
    (h : Fills depth s (f :: fs) t) : Fills depth s (f.orNamed other :: fs) t := h

/-- Among fields with names apart, each one finds what stands under its own name. -/
theorem filter_own {fields : List (Field σ)}
    (hnames : fields.Pairwise fun f g => f.isNamed g.name = false ∧ g.isNamed f.name = false)
    {es : List (String × Json)} (h : List.Forall₂ (fun f e => e.1 = f.name) fields es) :
    List.Forall₂ (fun f e => es.filter (fun e => f.isNamed e.1) = [e]) fields es := by
  induction h with
  | nil => exact .nil
  | @cons f e fs es he hes ih =>
      obtain ⟨hf, hfs⟩ := List.pairwise_cons.1 hnames
      have hnone : es.filter (fun e => f.isNamed e.1) = [] := by
        refine List.filter_eq_nil_iff.2 fun e' he' => ?_
        obtain ⟨g, hg, hname⟩ := exists_of_mem_forall₂ hes he'
        simp [hname, (hf g hg).1]
      have hother : ∀ g ∈ fs, g.isNamed e.1 = false := fun g hg => he ▸ (hf g hg).2
      refine .cons ?_ (((List.forall₂_and_left _ _).2 ⟨hother, ih hfs⟩).imp fun g e' hg => ?_)
      · rw [List.filter_cons, he, if_pos (isNamed_name f), hnone]
      · rw [List.filter_cons, hg.1, if_neg Bool.false_ne_true, hg.2]

/-- The fields of the structure as they become within a text, and what is read from them. -/
theorem Fills.exists_fields {s t : σ} {fs : List (Field σ)} (h : Fills depth s fs t) :
    ∃ es : List (String × Json),
      List.Forall₂ (fun f e => e.1 = f.name ∧ Becomes depth (f.write s) e.2) fs es ∧
      ∀ object : List (String × Json),
        List.Forall₂ (fun f e => object.filter (fun e => f.isNamed e.1) = [e]) fs es →
        fs.foldlM (readNamed object) t = some s := by
  induction fs generalizing t with
  | nil => exact ⟨[], .nil, fun _ _ => congrArg some h⟩
  | cons f fs ih =>
      obtain ⟨j, t', hj, hread, hrest⟩ := h
      obtain ⟨es, hes, hfold⟩ := ih hrest
      refine ⟨(f.name, j) :: es, .cons ⟨rfl, hj⟩ hes, fun object hobject => ?_⟩
      cases hobject with
      | cons hfound hobject =>
          have hfield : readNamed object t f = some t' := by
            rw [readNamed, hfound]
            exact hread
          rw [List.foldlM_cons, hfield]
          exact hfold object hobject

/-- **STRUCTURES** return field by field. -/
theorem returns {r : Record σ} (hnames : r.NamesApart) {s : σ}
    (h : Fills depth s r.fields r.start) : r.codec.Returns (depth + 1) s := by
  obtain ⟨es, hes, hfold⟩ := h.exists_fields
  refine ⟨Json.object es, .obj ?_, ?_⟩
  · rw [List.forall₂_map_left_iff]
    exact hes
  · rw [Json.object_eq]
    refine hfold _ ((filter_own hnames (hes.imp fun _ _ he => he.1)).imp fun f e hf => ?_)
    -- in the order of the object the field stands there as well
    rw [filter_isNamed, hf]
    rfl

end Record

end Pitwall
