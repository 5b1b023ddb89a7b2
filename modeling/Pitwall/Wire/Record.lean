import Pitwall.Json.Written
import Pitwall.Wire.Codec

/-!
# Records — structures as JSON objects

A `Record σ` lists the fields of a structure with their names. It is read field by field into
a value that holds the defaults: from an object by name, where a missing field keeps its
default, unknown fields are skipped and a field given twice is refused; or from an array by
position, where trailing fields may be missing but none may be too many.

**`Record.codec`** reads from a JSON value. **`Record.ofText?`** reads from a text: there a
field that is unknown need not even have a value, and a known one may not be repeated.
-/

namespace Pitwall

structure Field (σ : Type) where
  /-- The name that is written. -/
  name : String
  /-- Other names that are accepted. -/
  aliases : List String
  /-- Whether the field may not be missing. -/
  required : Bool
  /-- Sets the field from its JSON. -/
  read : Json → σ → Option σ
  write : σ → Json

namespace Field

variable {σ α : Type}

/-- A field by its name, with a way to get and one to set it. -/
def of (name : String) (c : Codec α) (get : σ → α) (set : σ → α → σ) : Field σ :=
  ⟨name, [], false, fun j s => (c.read j).map (set s), fun s => c.write (get s)⟩

/-- The field also goes by another name. -/
def orNamed (f : Field σ) (other : String) : Field σ := { f with aliases := other :: f.aliases }

/-- The field may not be missing. -/
def needed (f : Field σ) : Field σ := { f with required := true }

/-- Whether the field goes by a name. -/
def isNamed (f : Field σ) (name : String) : Bool := f.name == name || f.aliases.contains name

end Field

/-- The fields of a structure and a value with the defaults. -/
structure Record (σ : Type) where
  /-- The value whose fields stand where none are given. -/
  start : σ
  /-- The fields in their order. -/
  fields : List (Field σ)

namespace Record

variable {σ : Type}

/-- Sets one field from the fields of an object. -/
def readNamed (object : List (String × Json)) (s : σ) (f : Field σ) : Option σ :=
  match object.filter (fun e => f.isNamed e.1) with
  | [] => if f.required then none else some s
  | [e] => f.read e.2 s
  | _ => none

/-- Reads the fields of an object by name. -/
def readObject (r : Record σ) (object : List (String × Json)) : Option σ :=
  r.fields.foldlM (readNamed object) r.start

/-- Reads items by position. -/
def readItems : List (Field σ) → List Json → σ → Option σ
  | [], [], s => some s
  | [], _ :: _, _ => none
  | f :: fs, [], s => if f.required then none else readItems fs [] s
  | f :: fs, j :: js, s => f.read j s >>= readItems fs js

/-- A structure as an object; an array of the fields in their order is read as well. -/
def codec (r : Record σ) : Codec σ where
  read
    | .obj object => r.readObject object
    | .arr items => readItems r.fields items r.start
    | _ => none
  write s := .obj (r.fields.map (fun f => (f.name, f.write s)))

/-- Whether some field goes by a name. -/
def knows (r : Record σ) (name : String) : Bool := r.fields.any (fun f => f.isNamed name)

/-- The names and values of the known fields; every name has to be readable, and the values of
the known fields, but not those of the others. -/
def knownFields? (r : Record σ) :
    List (Option String × Json.Written) → Option (List (String × Json))
  | [] => some []
  | (name, w) :: rest => do
    let name ← name
    if r.knows name then
      let value ← w.value? (Json.depthLimit - 1)
      let known ← r.knownFields? rest
      return (name, value) :: known
    else r.knownFields? rest

/-- Reads a structure from the tree of a text. -/
def ofWritten? (r : Record σ) : Json.Written → Option σ
  | .obj object => r.knownFields? object >>= r.readObject
  | .arr items =>
    Json.Written.values? (Json.depthLimit - 1) items >>= fun items =>
      readItems r.fields items r.start
  | _ => none

/-- Reads a structure from a text. -/
def ofText? (r : Record σ) (s : String) : Option σ := Json.Written.read? s.toList >>= r.ofWritten?

end Record

end Pitwall
