import Pitwall.Wire.Codec

/-!
# Who is who — driver GUIDs, car ids and slots

A driver keeps one GUID through all reconnects. A car id names the place on the server that a
car occupies and is handed on once the place is free. A `Slot` is a driver in one model of car,
the key under which the records of drivers who left are filed.
-/

namespace Pitwall

structure Guid where
  /-- The identifier as the server writes it. -/
  text : String
  deriving DecidableEq

namespace Guid

instance : Inhabited Guid := ⟨⟨""⟩⟩

/-- GUIDs by their characters. -/
instance : Ord Guid := ⟨fun g h => compare g.text h.text⟩

instance : Std.TransOrd Guid := inferInstanceAs (Std.TransCmp (compareOn Guid.text))

instance : Std.LawfulEqOrd Guid where
  eq_of_compare {g h} e := by
    cases g; cases h
    exact congrArg Guid.mk (Std.LawfulEqOrd.eq_of_compare (α := String) e)
  compare_self {g} := Std.ReflOrd.compare_self (a := g.text)

def codec : Codec Guid := Codec.string.map Guid.mk Guid.text

/-- GUIDs as names of fields. -/
def key : Codec.Key Guid := ⟨fun s => some ⟨s⟩, Guid.text⟩

end Guid

/-- The place on the server that a car occupies. -/
abbrev CarId := UInt32

/-- A driver in one model of car. -/
structure Slot where
  guid : Guid
  model : String
  deriving DecidableEq

namespace Slot

instance : Inhabited Slot := ⟨⟨default, ""⟩⟩

/-- Slots by GUID, then by model. -/
instance : Ord Slot := ⟨fun s t => (compare s.guid t.guid).then (compare s.model t.model)⟩

theorem compare_def (s t : Slot) :
    compare s t = (compare s.guid t.guid).then (compare s.model t.model) := rfl

instance : Std.TransOrd Slot :=
  inferInstanceAs (Std.TransCmp (compareLex (compareOn Slot.guid) (compareOn Slot.model)))

instance : Std.LawfulEqOrd Slot where
  eq_of_compare {s t} h := by
    rw [compare_def, Ordering.then_eq_eq] at h
    cases s; cases t
    rw [Slot.mk.injEq]
    exact ⟨Std.LawfulEqOrd.eq_of_compare h.1, Std.LawfulEqOrd.eq_of_compare h.2⟩
  compare_self {s} := by
    rw [compare_def, Ordering.then_eq_eq]
    exact ⟨Std.ReflOrd.compare_self, Std.ReflOrd.compare_self⟩

/-- A slot as text: GUID and model with a slash between them. -/
def label (s : Slot) : String := s.guid.text ++ "/" ++ s.model

end Slot

end Pitwall
