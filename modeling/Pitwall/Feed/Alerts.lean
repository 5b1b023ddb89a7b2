import Pitwall.Data.Table
import Pitwall.Driver.Collision

/-!
# Alerts — collisions as they are shown

Every collision is announced once. An alert is shown for ten seconds after the collision and
forgotten after twelve, and at most six are shown at a time: when a new one comes in, the
oldest ones are hidden for good.

The alerts stand in the order in which the collisions happened. Leap seconds apart, this is also the
order in which they expire.
-/

namespace Pitwall

/-- Who had which collision. -/
structure AlertId where
  guid : Guid
  /-- The number of the collision among those of the driver. -/
  number : UInt32
  deriving DecidableEq

namespace AlertId

/-- By driver, then by number. -/
instance : Ord AlertId :=
  ⟨fun a b => (compare a.guid b.guid).then (compare a.number b.number)⟩

theorem compare_def (a b : AlertId) :
    compare a b = (compare a.guid b.guid).then (compare a.number b.number) := rfl

instance : Std.TransOrd AlertId :=
  inferInstanceAs (Std.TransCmp (compareLex (compareOn AlertId.guid) (compareOn AlertId.number)))

instance : Std.LawfulEqOrd AlertId where
  eq_of_compare {a b} h := by
    rw [compare_def, Ordering.then_eq_eq] at h
    cases a; cases b
    rw [AlertId.mk.injEq]
    exact ⟨Std.LawfulEqOrd.eq_of_compare h.1, Std.LawfulEqOrd.eq_of_compare h.2⟩
  compare_self {a} := by
    rw [compare_def, Ordering.then_eq_eq]
    exact ⟨Std.ReflOrd.compare_self, Std.ReflOrd.compare_self⟩

end AlertId

/-- The place of an alert in the order of time. -/
structure AlertKey where
  time : Instant
  id : AlertId
  deriving DecidableEq

namespace AlertKey

/-- By time, then by driver and number. -/
instance : Ord AlertKey := ⟨fun a b => (compare a.time b.time).then (compare a.id b.id)⟩

theorem compare_def (a b : AlertKey) :
    compare a b = (compare a.time b.time).then (compare a.id b.id) := rfl

instance : Std.TransOrd AlertKey :=
  inferInstanceAs (Std.TransCmp (compareLex (compareOn AlertKey.time) (compareOn AlertKey.id)))

instance : Std.LawfulEqOrd AlertKey where
  eq_of_compare {a b} h := by
    rw [compare_def, Ordering.then_eq_eq] at h
    cases a; cases b
    rw [AlertKey.mk.injEq]
    exact ⟨Std.LawfulEqOrd.eq_of_compare h.1, Std.LawfulEqOrd.eq_of_compare h.2⟩
  compare_self {a} := by
    rw [compare_def, Ordering.then_eq_eq]
    exact ⟨Std.ReflOrd.compare_self, Std.ReflOrd.compare_self⟩

end AlertKey

structure Alert where
  guid : Guid
  driverName : String
  collision : Collision
  deriving DecidableEq, BEq

namespace Alert

def id (a : Alert) : AlertId := ⟨a.guid, a.collision.id⟩

/-- The place in the order of time. -/
def key (a : Alert) : AlertKey := ⟨a.collision.time, a.id⟩

end Alert

/-- An alert with whether it has been hidden. -/
structure AlertEntry where
  alert : Alert
  /-- Whether newer ones have taken its place. -/
  hidden : Bool
  deriving DecidableEq, BEq

/-- The alerts that have not been forgotten. -/
structure Alerts where
  /-- The alerts in the order of time. -/
  entries : Table AlertKey AlertEntry := .empty
  /-- The collisions that have been announced and not been forgotten. -/
  seen : Table AlertId Unit := .empty
  deriving DecidableEq, BEq

namespace Alerts

instance : Inhabited Alerts := ⟨{}⟩

/-- An alert is shown until the collision is this old, in nanoseconds. -/
def shownFor : Int := 10 * nanosPerSecond

/-- An alert is forgotten when the collision is this old, in nanoseconds. -/
def keptFor : Int := 12 * nanosPerSecond

/-- So many alerts are shown at most. -/
def mostShown : Nat := 6

/-- How long ago the collision of an alert happened, in nanoseconds. -/
def age (a : Alert) (now : Instant) : Int := a.collision.time.elapsed now

/-- Whether an alert is shown. -/
def isShown (now : Instant) (e : AlertEntry) : Bool :=
  !e.hidden && decide (age e.alert now < shownFor)

/-- The alerts that are shown, oldest first. -/
def shown (a : Alerts) (now : Instant) : List Alert :=
  (a.entries.values.filter (isShown now)).map AlertEntry.alert

def size (a : Alerts) : Nat := a.entries.size

/-- Whether there are no alerts. -/
def isEmpty (a : Alerts) : Bool := a.entries.isEmpty

/-- Hides the first `excess` of the entries that are shown. -/
def hideFirst (now : Instant) :
    Nat → List (AlertKey × AlertEntry) → List (AlertKey × AlertEntry)
  | 0, es => es
  | _ + 1, [] => []
  | excess + 1, e :: es =>
    if isShown now e.2 then (e.1, { e.2 with hidden := true }) :: hideFirst now excess es
    else e :: hideFirst now (excess + 1) es

/-- Hiding leaves the keys as they are. -/
theorem keys_hideFirst (now : Instant) (excess : Nat) (es : List (AlertKey × AlertEntry)) :
    (hideFirst now excess es).map Prod.fst = es.map Prod.fst := by
  induction es generalizing excess with
  | nil => cases excess <;> rfl
  | cons e es ih =>
    cases excess with
    | zero => rfl
    | succ excess =>
      rw [hideFirst]
      split <;> simp [ih]

/-- Hides the oldest alerts that are shown in excess. -/
def hideExcess (now : Instant) (t : Table AlertKey AlertEntry) : Table AlertKey AlertEntry where
  entries := hideFirst now ((t.values.filter (isShown now)).length - mostShown) t.entries
  ascending := by rw [keys_hideFirst]; exact t.ascending

/-- Announces a collision, unless it has been announced or is past being shown. Tells whether
it was taken up. -/
def offer (a : Alerts) (alert : Alert) (now : Instant) : Alerts × Bool :=
  if a.seen.contains alert.id || decide (shownFor ≤ age alert now) then (a, false)
  else
    ({ entries := hideExcess now (a.entries.insert alert.key ⟨alert, false⟩)
       seen := a.seen.insert alert.id () }, true)

/-- Whether an alert is to be forgotten. -/
def isOver (now : Instant) (e : AlertKey × AlertEntry) : Bool :=
  decide (keptFor ≤ e.1.time.elapsed now)

/-- Forgets the alerts at the front that are over, and tells how many they were. -/
def sweep (a : Alerts) (now : Instant) : Alerts × Nat :=
  let ended := a.entries.entries.takeWhile (isOver now)
  let kept : Table AlertKey AlertEntry :=
    { entries := a.entries.entries.dropWhile (isOver now)
      ascending := a.entries.ascending.sublist ((List.dropWhile_sublist _).map Prod.fst) }
  ({ entries := hideExcess now kept
     seen := ended.foldl (fun seen e => seen.erase e.1.id) a.seen },
   ended.length)

end Alerts

end Pitwall
