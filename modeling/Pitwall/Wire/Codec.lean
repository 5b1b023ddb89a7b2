import Pitwall.Data.Keyed
import Pitwall.Json.Numeral
import Pitwall.Json.Printer
import Pitwall.Time.Rfc3339

/-!
# Codecs — values of the domain as JSON values

A `Codec α` reads a value of type `α` from JSON and writes it. Reading is exact about kinds: a
whole number is never given as a double or a string, nothing but the codecs that say so
accepts `null`, and any part that cannot be read makes the whole unreadable.
-/

namespace Pitwall

/-- How a type is read from JSON and written. -/
structure Codec (α : Type) where
  /-- The value, or nothing when the JSON does not stand for one. -/
  read : Json → Option α
  write : α → Json

namespace Codec

variable {α β κ ν : Type}

/-- The same JSON for another type. -/
def map (c : Codec α) (forth : α → β) (back : β → α) : Codec β where
  read j := (c.read j).map forth
  write v := c.write (back v)

/-! ## Plain values -/

/-- Any JSON value, as it is. -/
def json : Codec Json := ⟨some, id⟩

def bool : Codec Bool where
  read
    | .bool b => some b
    | _ => none
  write := .bool

def string : Codec String where
  read
    | .str s => some s
    | _ => none
  write := .str

/-- A whole number between two bounds. -/
def whole? (low high : Int) : Json → Option Int
  | .num (.int n) => if low ≤ n ∧ n ≤ high then some n else none
  | _ => none

/-- A natural number below a bound. -/
def natBelow? (bound : Nat) (j : Json) : Option Nat := (whole? 0 (bound - 1) j).map Int.toNat

/-- The JSON of a whole number. -/
def wholeJson (n : Int) : Json := .num (.int n)

/-- Unsigned numbers of eight bits. -/
def uint8 : Codec UInt8 := ⟨fun j => (natBelow? UInt8.size j).map UInt8.ofNat,
  fun n => wholeJson n.toNat⟩

/-- Unsigned numbers of sixteen bits. -/
def uint16 : Codec UInt16 := ⟨fun j => (natBelow? UInt16.size j).map UInt16.ofNat,
  fun n => wholeJson n.toNat⟩

/-- Unsigned numbers of thirty-two bits. -/
def uint32 : Codec UInt32 := ⟨fun j => (natBelow? UInt32.size j).map UInt32.ofNat,
  fun n => wholeJson n.toNat⟩

/-- Unsigned numbers of sixty-four bits. -/
def uint64 : Codec UInt64 := ⟨fun j => (natBelow? UInt64.size j).map UInt64.ofNat,
  fun n => wholeJson n.toNat⟩

/-- Signed numbers of thirty-two bits. -/
def int32 : Codec Int32 := ⟨fun j => (whole? (-2147483648) 2147483647 j).map Int32.ofInt,
  fun n => wholeJson n.toInt⟩

/-- Signed numbers of sixty-four bits. -/
def int64 : Codec Int64 :=
  ⟨fun j => (whole? (-9223372036854775808) 9223372036854775807 j).map Int64.ofInt,
    fun n => wholeJson n.toInt⟩

/-- Doubles; any number is accepted, and what is not finite is written as `null`. -/
def double : Codec Binary64 where
  read
    | .num (.int n) => some (.ofInt n)
    | .num (.float x) => some x
    | _ => none
  write x := if x.isFinite then .num (.float x) else .null

/-- Numbers of single precision; any number is accepted and rounded once. -/
def single : Codec Binary32 where
  read
    | .num (.int n) => some (.ofInt n)
    | .num (.float x) => some x.convert
    | _ => none
  write x := double.write x.convert

def instant : Codec Instant where
  read
    | .str s => Instant.read? s
    | _ => none
  write t := .str t.text

/-- Anything as text: a string as it is, `null` as the empty text, all else in its compact
form. -/
def anyText : Codec String where
  read
    | .null => some ""
    | .str s => some s
    | j => some j.compact
  write := .str

/-- One of several names; a name may also stand as the only field of an object, with `null`
as its value. -/
def oneOf (names : List (String × α)) (nameOf : α → String) : Codec α where
  read
    | .str s => names.lookup s
    | .obj [(s, .null)] => names.lookup s
    | _ => none
  write v := .str (nameOf v)

/-! ## What may be absent -/

/-- A value or `null`. -/
def option (c : Codec α) : Codec (Option α) where
  read
    | .null => some none
    | j => (c.read j).map some
  write
    | none => .null
    | some v => c.write v

/-- A value for which `null` stands as well. -/
def nullAs (value : α) (c : Codec α) : Codec α where
  read
    | .null => some value
    | j => c.read j
  write := c.write

/-! ## Collections -/

def list (c : Codec α) : Codec (List α) where
  read
    | .arr items => items.mapM c.read
    | _ => none
  write vs := .arr (vs.map c.write)

/-- How keys stand as names of fields. -/
structure Key (κ : Type) where
  read : String → Option κ
  write : κ → String

/-- A number as a name: its digits as in JSON, and a value below the bound. -/
def keyBelow? (bound : Nat) (name : String) : Option Nat :=
  (Json.Numeral.read? name.toList >>= Json.Numeral.number?) >>= fun n =>
    natBelow? bound (.num n)

/-- Keys of eight bits. -/
def Key.uint8 : Key UInt8 := ⟨fun s => (keyBelow? UInt8.size s).map UInt8.ofNat,
  fun k => String.ofList (Text.decimal k.toNat)⟩

/-- Keys of thirty-two bits. -/
def Key.uint32 : Key UInt32 := ⟨fun s => (keyBelow? UInt32.size s).map UInt32.ofNat,
  fun k => String.ofList (Text.decimal k.toNat)⟩

/-- Texts as keys. -/
def Key.string : Key String := ⟨some, id⟩

def entries (key : Key κ) (c : Codec ν) : Codec (List (κ × ν)) where
  read
    | .obj fields => fields.mapM (fun e => do return (← key.read e.1, ← c.read e.2))
    | _ => none
  write es := .obj (es.map (fun e => (key.write e.1, c.write e.2)))

/-- Objects as keyed lists. -/
def keyed [DecidableEq κ] (key : Key κ) (c : Codec ν) : Codec (Keyed κ ν) :=
  (entries key c).map Keyed.ofList Keyed.entries

/-- Objects as tables. -/
def table [Ord κ] [Std.TransOrd κ] [Std.LawfulEqOrd κ] (key : Key κ) (c : Codec ν) :
    Codec (Table κ ν) :=
  (entries key c).map Table.ofList Table.entries

end Codec

end Pitwall
