/-!
# Backoff — waiting before the next attempt

The delay before an attempt to connect doubles from a least delay up to a greatest one and goes
back to the least one after a success. Delays are milliseconds.
-/

namespace Pitwall

/-- The delays between attempts. -/
structure Backoff where
  least : Nat
  greatest : Nat
  next : Nat
  deriving DecidableEq

namespace Backoff

/-- Delays between two bounds; a greatest delay below the least one counts as equal to it. -/
def ofBounds (least greatest : Nat) : Backoff := ⟨least, max greatest least, least⟩

/-- The least delay where nothing else is set. -/
def defaultLeast : Nat := 250

/-- The greatest delay where nothing else is set. -/
def defaultGreatest : Nat := 10000

instance : Inhabited Backoff := ⟨ofBounds defaultLeast defaultGreatest⟩

/-- The delay before the next attempt, and the delays after it. -/
def take (b : Backoff) : Nat × Backoff :=
  (b.next, { b with next := max b.least (min (2 * b.next) b.greatest) })

/-- Goes back to the least delay. -/
def reset (b : Backoff) : Backoff := { b with next := b.least }

/-- The delays before so many attempts. -/
def delays (b : Backoff) : Nat → List Nat
  | 0 => []
  | n + 1 => b.take.1 :: b.take.2.delays n

end Backoff

end Pitwall
