import Pitwall.Proofs.Json.WholeNumbers
import Pitwall.Proofs.Wire.Writing

/-!
# Exact codecs — one JSON for each value

Truth values, texts and whole numbers are read from the JSON that is written for them and from no
other: a whole number is never read from a double, a text or a larger number. Such a codec is
`Codec.Exact`; the codecs of words are, whatever their width is (**`Codec.exact_word`**). Keys have
one name each in the same way (**`Key.exact_word`**).
-/

namespace Pitwall.Codec

variable {α : Type}

/-- The codec reads what it writes and nothing else. -/
def Exact (c : Codec α) : Prop := ∀ j v, c.read j = some v ↔ j = c.write v

theorem Exact.faithful {c : Codec α} (h : c.Exact) : c.Faithful := fun v => (h _ v).2 rfl

/-! ## Plain values -/

theorem exact_bool : bool.Exact := by
  intro j v
  cases j with
  | bool b => exact Option.some_inj.trans (Json.bool.injEq b v).symm.to_iff
  | _ => exact ⟨fun h => (nomatch h), fun h => (nomatch h)⟩

theorem exact_string : string.Exact := by
  intro j v
  cases j with
  | str s => exact Option.some_inj.trans (Json.str.injEq s v).symm.to_iff
  | _ => exact ⟨fun h => (nomatch h), fun h => (nomatch h)⟩

/-! ## Whole numbers -/

theorem whole?_eq_some_iff {low high n : Int} {j : Json} :
    whole? low high j = some n ↔ j = wholeJson n ∧ low ≤ n ∧ n ≤ high := by
  constructor
  · intro h
    rw [whole?.eq_def] at h
    split at h
    · next m =>
      split at h
      · next hm =>
        obtain rfl := Option.some.inj h
        exact ⟨rfl, hm⟩
      · cases h
    · cases h
  · rintro ⟨rfl, hn⟩
    exact if_pos hn

theorem natBelow?_eq_some_iff {bound n : Nat} {j : Json} :
    natBelow? bound j = some n ↔ j = wholeJson n ∧ n < bound := by
  rw [natBelow?, Option.map_eq_some_iff]
  constructor
  · rintro ⟨m, hm, rfl⟩
    obtain ⟨rfl, hlow, hhigh⟩ := whole?_eq_some_iff.1 hm
    rw [Int.toNat_of_nonneg hlow]
    exact ⟨rfl, by omega⟩
  · rintro ⟨rfl, hn⟩
    exact ⟨n, whole?_eq_some_iff.2 ⟨rfl, by omega, by omega⟩, Int.toNat_natCast n⟩

/-- **WORDS** stand as the numbers below their size. -/
theorem exact_word {size : Nat} {ofNat : Nat → α} {toNat : α → Nat}
    (hlt : ∀ v, toNat v < size) (hto : ∀ n < size, toNat (ofNat n) = n)
    (hof : ∀ v, ofNat (toNat v) = v) :
    Exact ⟨fun j => (natBelow? size j).map ofNat, fun v => wholeJson (toNat v)⟩ := by
  intro j v
  show (natBelow? size j).map ofNat = some v ↔ j = wholeJson (toNat v)
  rw [Option.map_eq_some_iff]
  constructor
  · rintro ⟨n, hn, rfl⟩
    obtain ⟨rfl, hlt⟩ := natBelow?_eq_some_iff.1 hn
    rw [hto n hlt]
  · rintro rfl
    exact ⟨toNat v, natBelow?_eq_some_iff.2 ⟨rfl, hlt v⟩, hof v⟩

/-- **WORDS WITH A SIGN** stand as the numbers within their bounds. -/
theorem exact_signedWord {low high : Int} {ofInt : Int → α} {toInt : α → Int}
    (hin : ∀ v, low ≤ toInt v ∧ toInt v ≤ high)
    (hto : ∀ n, low ≤ n → n ≤ high → toInt (ofInt n) = n) (hof : ∀ v, ofInt (toInt v) = v) :
    Exact ⟨fun j => (whole? low high j).map ofInt, fun v => wholeJson (toInt v)⟩ := by
  intro j v
  show (whole? low high j).map ofInt = some v ↔ j = wholeJson (toInt v)
  rw [Option.map_eq_some_iff]
  constructor
  · rintro ⟨n, hn, rfl⟩
    obtain ⟨rfl, hlow, hhigh⟩ := whole?_eq_some_iff.1 hn
    rw [hto n hlow hhigh]
  · rintro rfl
    exact ⟨toInt v, whole?_eq_some_iff.2 ⟨rfl, hin v⟩, hof v⟩

theorem exact_uint8 : uint8.Exact :=
  exact_word UInt8.toNat_lt (fun _ h => UInt8.toNat_ofNat_of_lt h) fun _ => UInt8.ofNat_toNat

theorem exact_uint16 : uint16.Exact :=
  exact_word UInt16.toNat_lt (fun _ h => UInt16.toNat_ofNat_of_lt h) fun _ => UInt16.ofNat_toNat

theorem exact_uint32 : uint32.Exact :=
  exact_word UInt32.toNat_lt (fun _ h => UInt32.toNat_ofNat_of_lt h) fun _ => UInt32.ofNat_toNat

theorem exact_uint64 : uint64.Exact :=
  exact_word UInt64.toNat_lt (fun _ h => UInt64.toNat_ofNat_of_lt h) fun _ => UInt64.ofNat_toNat

theorem exact_int32 : int32.Exact :=
  exact_signedWord (fun v => ⟨v.minValue_le_toInt, v.toInt_le⟩)
    (fun _ hlow hhigh => Int32.toInt_ofInt_of_le hlow (by omega)) fun _ => Int32.ofInt_toInt _

theorem exact_int64 : int64.Exact :=
  exact_signedWord (fun v => ⟨v.minValue_le_toInt, v.toInt_le⟩)
    (fun _ hlow hhigh => Int64.toInt_ofInt_of_le hlow (by omega)) fun _ => Int64.ofInt_toInt _

/-! ## Keys -/

/-- The key is read from the name that is written for it and from nothing else. -/
def Key.Exact {κ : Type} (key : Key κ) : Prop :=
  ∀ name k, key.read name = some k ↔ name = key.write k

/-- **NAMES OF NUMBERS** are their decimal digits. -/
theorem keyBelow?_eq_some_iff {bound n : Nat} (hbound : bound ≤ Json.Numeral.wordLimit)
    {name : String} :
    keyBelow? bound name = some n ↔ name = String.ofList (Text.decimal n) ∧ n < bound := by
  rw [keyBelow?, Option.bind_eq_bind, Option.bind_eq_some_iff]
  constructor
  · rintro ⟨number, hread, hbelow⟩
    obtain ⟨hnumber, hn⟩ := natBelow?_eq_some_iff.1 hbelow
    cases hnumber
    obtain ⟨hdigits, -⟩ := Json.Numeral.read?_eq_natural_iff.1 hread
    exact ⟨by rw [← hdigits, String.ofList_toList], hn⟩
  · rintro ⟨rfl, hn⟩
    refine ⟨.int n, ?_, natBelow?_eq_some_iff.2 ⟨rfl, hn⟩⟩
    rw [Json.Numeral.read?_eq_natural_iff, String.toList_ofList]
    exact ⟨rfl, by omega⟩

theorem Key.exact_word {size : Nat} {ofNat : Nat → α} {toNat : α → Nat}
    (hsize : size ≤ Json.Numeral.wordLimit) (hlt : ∀ v, toNat v < size)
    (hto : ∀ n < size, toNat (ofNat n) = n) (hof : ∀ v, ofNat (toNat v) = v) :
    Key.Exact ⟨fun name => (keyBelow? size name).map ofNat,
      fun v => String.ofList (Text.decimal (toNat v))⟩ := by
  intro name v
  show (keyBelow? size name).map ofNat = some v ↔ name = String.ofList (Text.decimal (toNat v))
  rw [Option.map_eq_some_iff]
  constructor
  · rintro ⟨n, hn, rfl⟩
    obtain ⟨rfl, hlt⟩ := (keyBelow?_eq_some_iff hsize).1 hn
    rw [hto n hlt]
  · rintro rfl
    exact ⟨toNat v, (keyBelow?_eq_some_iff hsize).2 ⟨rfl, hlt v⟩, hof v⟩

theorem Key.exact_uint8 : Key.uint8.Exact :=
  exact_word (by decide) UInt8.toNat_lt (fun _ h => UInt8.toNat_ofNat_of_lt h)
    fun _ => UInt8.ofNat_toNat

theorem Key.exact_uint32 : Key.uint32.Exact :=
  exact_word (by decide) UInt32.toNat_lt (fun _ h => UInt32.toNat_ofNat_of_lt h)
    fun _ => UInt32.ofNat_toNat

theorem Key.exact_string : Key.string.Exact := fun _ _ => Option.some_inj

/-- Keys with one name are one key. -/
theorem Key.Exact.write_inj {κ : Type} {key : Key κ} (h : key.Exact) {k l : κ}
    (heq : key.write k = key.write l) : k = l := by
  have hk := (h _ k).2 rfl
  rw [heq, (h _ l).2 rfl] at hk
  exact (Option.some.inj hk).symm

end Pitwall.Codec
