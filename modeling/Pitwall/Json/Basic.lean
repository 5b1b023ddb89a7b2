import Pitwall.Data.Table
import Pitwall.Numeric.Shortest
import Pitwall.Text.Digits

/-!
# JSON values

A `Json` value is what a text means once it has been read strictly: numbers are whole numbers
or doubles, strings are texts. An object is a list of fields; values that come from a text
have their fields in ascending order of the names, each name once (**`Json.object`**), while
values that are written keep the order they are given in.
-/

namespace Pitwall

/-- A number: whole numbers stay exact. -/
inductive Json.Number where
  | int (n : Int)
  /-- Any other number. -/
  | float (x : Binary64)
  deriving DecidableEq

/-- A JSON value. -/
inductive Json where
  /-- The value `null`. -/
  | null
  | bool (b : Bool)
  | num (n : Json.Number)
  | str (s : String)
  | arr (items : List Json)
  | obj (fields : List (String × Json))

namespace Json

instance : Inhabited Json := ⟨.null⟩

/-- An object with its fields in ascending order of the names; of two fields with one name the
later counts. -/
def object (fields : List (String × Json)) : Json :=
  .obj (fields.foldl (fun sorted e => Table.insertEntry e.1 e.2 sorted) [])

/-- Doubles are positional from `1e-5` up to `1e16` and whole ones keep a fraction; beyond, an
exponent carries its sign. -/
def doubleStyle : DecimalStyle :=
  ⟨-4, 16, ['.', '0'], ['e', '+'], ['e', '-']⟩

/-- A finite double in the fewest digits that read back; what is not finite has no number text
and stands as `null`. -/
def doubleText (x : Binary64) : List Char :=
  if !x.isFinite then ['n', 'u', 'l', 'l']
  else
    let magnitude := if x.magnitude = 0 then ['0', '.', '0'] else doubleStyle.text x.shortest
    if x.negative then '-' :: magnitude else magnitude

def Number.text : Number → List Char
  | .int n => Text.signed n
  | .float x => doubleText x

end Json

end Pitwall
