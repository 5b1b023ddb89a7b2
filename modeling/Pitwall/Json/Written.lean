import Pitwall.Json.Token

/-!
# Written values — a JSON text as a tree

The tree of a text keeps what was written: fields in their order and with repetitions, and
numbers and strings that have no value. It is built token by token; the containers that are
still open form a stack, and nothing limits how deep they nest.

**`Written.value?`** is the strict reading: every number and string has a value, containers
nest only so deep, and of two fields with one name the later counts. **`Json.parse`** is that
reading of a whole text.
-/

namespace Pitwall.Json

/-- A value as written. -/
inductive Written where
  /-- The literal `null`. -/
  | null
  /-- The literals `true` and `false`. -/
  | bool (b : Bool)
  | num (n : Option Number)
  | str (s : Option String)
  | arr (items : List Written)
  /-- An object; fields keep their order and may repeat. -/
  | obj (fields : List (Option String × Written))

namespace Written

instance : Inhabited Written := ⟨.null⟩

/-! ## Building the tree -/

/-- A container that is open while one of its values is read; what it holds is kept last
first. -/
inductive Open where
  | arr (items : List Written)
  /-- An object, with the name of the field that is read. -/
  | obj (fields : List (Option String × Written)) (name : Option String)

/-- What has to come next. -/
inductive Stage where
  | value (above : List Open)
  /-- The first item of an array, or its end. -/
  | firstItem (above : List Open)
  /-- Behind an item: a comma, or the end of the array. -/
  | items (items : List Written) (above : List Open)
  /-- The first name in an object, or its end. -/
  | firstField (above : List Open)
  | name (fields : List (Option String × Written)) (above : List Open)
  | colon (fields : List (Option String × Written)) (name : Option String) (above : List Open)
  /-- Behind a field: a comma, or the end of the object. -/
  | fields (fields : List (Option String × Written)) (above : List Open)
  /-- Nothing: the value is complete. -/
  | done (v : Written)

/-- Hands a complete value to the innermost open container. -/
def complete (v : Written) : List Open → Stage
  | [] => .done v
  | .arr items :: above => .items (v :: items) above
  | .obj fields name :: above => .fields ((name, v) :: fields) above

def start? (above : List Open) : Token → Option Stage
  | .null => some (complete .null above)
  | .bool b => some (complete (.bool b) above)
  | .num n => some (complete (.num n) above)
  | .str s => some (complete (.str s) above)
  | .openArr => some (.firstItem above)
  | .openObj => some (.firstField above)
  | _ => none

def Stage.step : Stage → Token → Option Stage
  | .value above, t => start? above t
  | .firstItem above, .closeArr => some (complete (.arr []) above)
  | .firstItem above, t => start? (.arr [] :: above) t
  | .items read above, .comma => some (.value (.arr read :: above))
  | .items read above, .closeArr => some (complete (.arr read.reverse) above)
  | .firstField above, .closeObj => some (complete (.obj []) above)
  | .firstField above, .str key => some (.colon [] key above)
  | .name read above, .str key => some (.colon read key above)
  | .colon read key above, .colon => some (.value (.obj read key :: above))
  | .fields read above, .comma => some (.name read above)
  | .fields read above, .closeObj => some (complete (.obj read.reverse) above)
  | _, _ => none

/-- The value that a list of tokens spells. -/
def ofTokens? (ts : List Token) : Option Written :=
  match ts.foldlM Stage.step (.value []) with
  | some (.done v) => some v
  | _ => none

/-- The value that a text spells. -/
def read? (cs : List Char) : Option Written := Token.scan? cs >>= ofTokens?

/-! ## Strict reading -/

mutual

/-- The value of what is written, if containers nest no deeper than `depth`. -/
def value? (depth : Nat) : Written → Option Json
  | .null => some .null
  | .bool b => some (.bool b)
  | .num n => n.map .num
  | .str s => s.map .str
  | .arr items =>
    match depth with
    | 0 => none
    | depth + 1 => (values? depth items).map .arr
  | .obj fields =>
    match depth with
    | 0 => none
    | depth + 1 => (fieldValues? depth fields).map .object

/-- The values of the items of an array. -/
def values? (depth : Nat) : List Written → Option (List Json)
  | [] => some []
  | w :: ws => do return (← value? depth w) :: (← values? depth ws)

/-- The names and values of the fields of an object. -/
def fieldValues? (depth : Nat) :
    List (Option String × Written) → Option (List (String × Json))
  | [] => some []
  | (name, w) :: fields => do
    return (← name, ← value? depth w) :: (← fieldValues? depth fields)

end

end Written

/-- Containers nest this deep at most. -/
def depthLimit : Nat := 127

/-- Reads a text that holds one value. -/
def parse (s : String) : Option Json := Written.read? s.toList >>= Written.value? depthLimit

end Pitwall.Json
