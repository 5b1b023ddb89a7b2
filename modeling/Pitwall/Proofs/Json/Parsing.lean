import Pitwall.Proofs.Json.Doubles
import Pitwall.Proofs.Json.Reordering

/-!
# Parsing printed values — what a value becomes

A value that is printed and parsed again is the same up to two things: a number becomes what its
text says, and the fields of an object get into order. **`Json.Becomes`** says so of a value within
a text, part by part, and **`parse_compact`** of a whole text.
-/

namespace Pitwall.Json

namespace Written

theorem ofItems_eq_map (js : List Json) : ofItems js = js.map ofJson := by
  induction js with
  | nil => rfl
  | cons j js ih => rw [ofItems, ih, List.map_cons]

theorem ofFields_eq_map (fields : List (String × Json)) :
    ofFields fields = fields.map fun e => (some e.1, ofJson e.2) := by
  induction fields with
  | nil => rfl
  | cons e fields ih => rw [ofFields, ih, List.map_cons]

end Written

/-- Where containers may nest so deep, the text of a value is parsed as that other value. -/
structure Becomes (depth : Nat) (j j' : Json) : Prop where
  readable : j.Readable
  value : (Written.ofJson j.said).value? depth = some j'

variable {depth : Nat}

/-! ## Parts -/

theorem becomes_null : Becomes depth .null .null := ⟨.null, rfl⟩

theorem becomes_str (s : String) : Becomes depth (.str s) (.str s) := ⟨.str s, rfl⟩

theorem becomes_bool (b : Bool) : Becomes depth (.bool b) (.bool b) := ⟨.bool b, rfl⟩

theorem becomes_num {n : Number} (h : n.Readable) : Becomes depth (.num n) (.num n.said) :=
  ⟨.num h, rfl⟩

/-- Whole numbers of 64 bits stay what they are. -/
theorem becomes_int {n : Int} (hlow : -9223372036854775808 ≤ n)
    (hhigh : n < 18446744073709551616) : Becomes depth (.num (.int n)) (.num (.int n)) := by
  have hlegible := Number.legible_int hlow hhigh
  have hbecomes : Becomes depth (.num (.int n)) (.num (Number.int n).said) :=
    becomes_num hlegible.readable
  rwa [hlegible.said_eq] at hbecomes

/-- **ARRAYS** become arrays of what their items become. -/
theorem Becomes.arr {items items' : List Json} (h : List.Forall₂ (Becomes depth) items items') :
    Becomes (depth + 1) (.arr items) (.arr items') := by
  obtain ⟨hreadable, hvalues⟩ :=
    (List.forall₂_and_left _ _).1 (h.imp fun _ _ hb => ⟨hb.readable, hb.value⟩)
  refine ⟨.arr hreadable, ?_⟩
  have hitems : Written.values? depth (items.map fun j => Written.ofJson j.said) = some items' := by
    rw [Written.values?_eq_some_iff, List.forall₂_map_left_iff]
    exact hvalues
  rw [said, itemsSaid_eq_map, Written.ofJson, Written.ofItems_eq_map, List.map_map,
    Written.value?_arr]
  exact congrArg (Option.map Json.arr) hitems

/-- **OBJECTS** become objects of what their fields become, in order. -/
theorem Becomes.obj {fields fields' : List (String × Json)}
    (h : List.Forall₂ (fun e e' => e'.1 = e.1 ∧ Becomes depth e.2 e'.2) fields fields') :
    Becomes (depth + 1) (.obj fields) (object fields') := by
  have hparts : List.Forall₂ (fun e e' => e.2.Readable ∧
      Written.IsField depth (some e.1, Written.ofJson e.2.said) e') fields fields' :=
    h.imp fun _ _ hb => ⟨hb.2.readable, congrArg some hb.1.symm, hb.2.value⟩
  obtain ⟨hreadable, hvalues⟩ := (List.forall₂_and_left _ _).1 hparts
  refine ⟨.obj hreadable, ?_⟩
  have hfields : Written.fieldValues? depth
      (fields.map fun e => (some e.1, Written.ofJson e.2.said)) = some fields' := by
    rw [Written.fieldValues?_eq_some_iff, List.forall₂_map_left_iff]
    exact hvalues
  rw [said, fieldsSaid_eq_map, Written.ofJson, Written.ofFields_eq_map, List.map_map,
    Written.value?_obj]
  exact congrArg (Option.map object) hfields

/-! ## Texts -/

/-- **PARSING** what was printed gives what the value becomes. -/
theorem parse_compact {j j' : Json} (h : Becomes depthLimit j j') : parse j.compact = some j' := by
  rw [parse, compact, String.toList_ofList, Written.read?_chars_said h.readable]
  exact h.value

end Pitwall.Json
