import Pitwall.Event.Basic
import Pitwall.Board.Basic
import Pitwall.Proofs.Numeric.Number

/-!
# Numeric records — no float in them is NaN

Records are compared by their floats as numbers, and NaN is no number that equals itself. A record
is `Numeric` if there is no NaN in it; such a record equals itself: **`Board.beq_self`**.
-/

namespace Pitwall

deriving instance ReflBEq for SessionInfo, TrackInfo, CarInfo, Split

/-! ## What is numeric -/

def Coords.Numeric (p : Coords) : Prop := p.x.IsNumber ∧ p.y.IsNumber ∧ p.z.IsNumber

def Damage.Numeric (d : Damage) : Prop := ∀ x ∈ d.toList, x.IsNumber

def Collision.Numeric (c : Collision) : Prop := c.speed.IsNumber ∧ c.damage.Numeric

def LapSheet.Numeric (s : LapSheet) : Prop := s.topSpeed.IsNumber ∧ s.bestLapTopSpeed.IsNumber

/-- No float of a record is NaN, in the collisions and lap sheets neither. -/
structure Driver.Numeric (d : Driver) : Prop where
  spline : d.spline.IsNumber
  lastPosition : d.lastPosition.Numeric
  collisions : ∀ c ∈ d.collisions, c.Numeric
  sheets : ∀ s ∈ d.sheets.values, s.Numeric

def TrackMap.Numeric (m : TrackMap) : Prop :=
  ∀ x ∈ [m.width, m.height, m.margin, m.scale, m.offsetX, m.offsetY], x.IsNumber

def Roster.Numeric (g : Roster) : Prop := ∀ d ∈ g.drivers.values, d.Numeric

/-- No float of a snapshot is NaN. -/
structure Snapshot.Numeric (s : Snapshot) : Prop where
  map : s.map.Numeric
  connected : ∀ g ∈ s.connected, g.Numeric
  disconnected : ∀ g ∈ s.disconnected, g.Numeric

/-- No float of a telemetry message is NaN. -/
structure Telemetry.Numeric (t : Telemetry) : Prop where
  position : t.position.Numeric
  velocity : t.velocity.Numeric
  spline : t.spline.IsNumber

/-- No float of a collision message is NaN. -/
structure CollisionReport.Numeric (c : CollisionReport) : Prop where
  speed : c.speed.IsNumber
  position : c.position.Numeric
  relativePosition : c.relativePosition.Numeric
  damage : c.damage.Numeric

/-- No float of an event is NaN. -/
def Event.Numeric : Event → Prop
  | .snapshot s => s.Numeric
  | .carUpdate t => t.Numeric
  | .collision c => c.Numeric
  | _ => True

def Marker.Numeric (m : Marker) : Prop := m.position.Numeric ∧ m.speed.IsNumber

/-- No float of a board is NaN. -/
structure Board.Numeric (b : Board) : Prop where
  map : b.map.Numeric
  connected : ∀ d ∈ b.connected.values, d.Numeric
  disconnected : ∀ d ∈ b.disconnected.values, d.Numeric
  markers : ∀ m ∈ b.markers.values, m.Numeric

section
variable (p : Coords) (d : Damage) (c : Collision) (s : LapSheet)

instance : Decidable p.Numeric := inferInstanceAs (Decidable (_ ∧ _))
instance : Decidable d.Numeric := inferInstanceAs (Decidable (∀ x ∈ d.toList, x.IsNumber))
instance : Decidable c.Numeric := inferInstanceAs (Decidable (_ ∧ _))
instance : Decidable s.Numeric := inferInstanceAs (Decidable (_ ∧ _))

end

instance (d : Driver) : Decidable d.Numeric :=
  decidable_of_iff (d.spline.IsNumber ∧ d.lastPosition.Numeric ∧ (∀ c ∈ d.collisions, c.Numeric) ∧
      ∀ s ∈ d.sheets.values, s.Numeric)
    ⟨fun ⟨hspline, hpos, hcoll, hsheets⟩ => ⟨hspline, hpos, hcoll, hsheets⟩,
      fun h => ⟨h.spline, h.lastPosition, h.collisions, h.sheets⟩⟩

instance (m : TrackMap) : Decidable m.Numeric :=
  inferInstanceAs (Decidable (∀ x ∈ [_, _, _, _, _, _], Binary.IsNumber x))

instance (g : Roster) : Decidable g.Numeric :=
  inferInstanceAs (Decidable (∀ d ∈ g.drivers.values, d.Numeric))

instance (s : Snapshot) : Decidable s.Numeric :=
  decidable_of_iff (s.map.Numeric ∧ (∀ g ∈ s.connected, g.Numeric) ∧ ∀ g ∈ s.disconnected, g.Numeric)
    ⟨fun ⟨hmap, hconn, hdisc⟩ => ⟨hmap, hconn, hdisc⟩,
      fun h => ⟨h.map, h.connected, h.disconnected⟩⟩

/-! ## Defaults are numeric -/

theorem Coords.numeric_default : Numeric {} :=
  ⟨Binary.isNumber_default (by decide), Binary.isNumber_default (by decide),
    Binary.isNumber_default (by decide)⟩

theorem Damage.numeric_iff {d : Damage} : d.Numeric ↔
    d.front.IsNumber ∧ d.rear.IsNumber ∧ d.left.IsNumber ∧ d.right.IsNumber := by
  simp [Numeric, toList]

theorem Damage.numeric_default : Numeric {} := by
  have hzero : (default : Binary32).IsNumber := Binary.isNumber_default (by decide)
  exact numeric_iff.2 ⟨hzero, hzero, hzero, hzero⟩

theorem Collision.numeric_default : Numeric {} :=
  ⟨Binary.isNumber_default (by decide), Damage.numeric_default⟩

theorem LapSheet.numeric_default : Numeric {} :=
  ⟨Binary.isNumber_default (by decide), Binary.isNumber_default (by decide)⟩

theorem Driver.numeric_default : Numeric {} where
  spline := Binary.isNumber_default (by decide)
  lastPosition := Coords.numeric_default
  collisions := List.forall_mem_nil _
  sheets := List.forall_mem_nil _

theorem TrackMap.numeric_iff {m : TrackMap} :
    m.Numeric ↔ m.width.IsNumber ∧ m.height.IsNumber ∧ m.margin.IsNumber ∧ m.scale.IsNumber ∧
      m.offsetX.IsNumber ∧ m.offsetY.IsNumber := by
  simp [Numeric]

theorem TrackMap.numeric_default : Numeric {} := by
  have hzero : (default : Binary32).IsNumber := Binary.isNumber_default (by decide)
  have hone : (Binary.ofNat 1 : Binary32).IsNumber :=
    (Binary.hasSign_ofRatio (by decide) _ _ _).isNumber
  exact numeric_iff.2 ⟨hzero, hzero, hzero, hone, hzero, hzero⟩

theorem Snapshot.numeric_default : Numeric {} where
  map := TrackMap.numeric_default
  connected := fun _ h => nomatch h
  disconnected := fun _ h => nomatch h

theorem Telemetry.numeric_default : Numeric {} :=
  ⟨Coords.numeric_default, Coords.numeric_default, Binary.isNumber_default (by decide)⟩

theorem CollisionReport.numeric_default : Numeric {} :=
  ⟨Binary.isNumber_default (by decide), Coords.numeric_default, Coords.numeric_default,
    Damage.numeric_default⟩

/-! ## Numeric records equal themselves -/

theorem list_beq_self {α : Type} [BEq α] {l : List α} (h : ∀ a ∈ l, (a == a) = true) :
    (l == l) = true := by
  induction l with
  | nil => rfl
  | cons a l ih =>
      have htail : (l == l) = true := ih fun x hx => h x (List.mem_cons_of_mem _ hx)
      show (a == a && l == l) = true
      rw [h a List.mem_cons_self, htail]
      rfl

section
variable {κ ν : Type} [BEq κ] [ReflBEq κ] [BEq ν]

theorem Entries.beq_self {es : List (κ × ν)} (h : ∀ v ∈ es.map Prod.snd, (v == v) = true) :
    (es == es) = true := by
  refine list_beq_self fun e he => ?_
  show (e.1 == e.1 && e.2 == e.2) = true
  rw [beq_self_eq_true, h e.2 (List.mem_map_of_mem he)]
  rfl

theorem Keyed.beq_self {m : Keyed κ ν} (h : ∀ v ∈ m.values, (v == v) = true) : (m == m) = true :=
  Entries.beq_self h

theorem Table.beq_self [Ord κ] {t : Table κ ν} (h : ∀ v ∈ t.values, (v == v) = true) :
    (t == t) = true :=
  Entries.beq_self h

instance [Ord κ] [ReflBEq ν] : ReflBEq (Table κ ν) :=
  ⟨Table.beq_self fun v _ => beq_self_eq_true v⟩

end

theorem Coords.beq_self {p : Coords} (h : p.Numeric) : (p == p) = true := by
  show (p.x == p.x && (p.y == p.y && p.z == p.z)) = true
  rw [(Binary.beq_self_iff _).2 h.1, (Binary.beq_self_iff _).2 h.2.1,
    (Binary.beq_self_iff _).2 h.2.2]
  rfl

theorem Damage.beq_self {d : Damage} (h : d.Numeric) : (d == d) = true := by
  obtain ⟨hfront, hrear, hleft, hright⟩ := numeric_iff.1 h
  show (d.front == d.front && (d.rear == d.rear && (d.left == d.left && d.right == d.right))) = true
  rw [(Binary.beq_self_iff _).2 hfront, (Binary.beq_self_iff _).2 hrear,
    (Binary.beq_self_iff _).2 hleft, (Binary.beq_self_iff _).2 hright]
  rfl

theorem Collision.beq_self {c : Collision} (h : c.Numeric) : (c == c) = true := by
  show (c.id == c.id && (c.impact == c.impact && (c.time == c.time && (c.otherGuid == c.otherGuid &&
    (c.otherName == c.otherName && (c.speed == c.speed && c.damage == c.damage)))))) = true
  simp only [beq_self_eq_true, (Binary.beq_self_iff _).2 h.1, Damage.beq_self h.2, Bool.and_self]

theorem LapSheet.beq_self {s : LapSheet} (h : s.Numeric) : (s == s) = true := by
  show (s.topSpeed == s.topSpeed && (s.bestLapTopSpeed == s.bestLapTopSpeed &&
    (s.bestLapTyres == s.bestLapTyres && (s.bestLap == s.bestLap && (s.laps == s.laps &&
    (s.lastLap == s.lastLap && (s.lastLapAt == s.lastLapAt && (s.totalTime == s.totalTime &&
    (s.carName == s.carName && (s.currentSplits == s.currentSplits &&
    s.bestSplits == s.bestSplits)))))))))) = true
  simp only [beq_self_eq_true, (Binary.beq_self_iff _).2 h.1, (Binary.beq_self_iff _).2 h.2,
    Bool.and_self]

theorem Driver.beq_self {d : Driver} (h : d.Numeric) : (d == d) = true := by
  have hcollisions : (d.collisions == d.collisions) = true :=
    list_beq_self fun c hc => Collision.beq_self (h.collisions c hc)
  have hsheets : (d.sheets == d.sheets) = true :=
    Table.beq_self fun s hs => LapSheet.beq_self (h.sheets s hs)
  show (d.car == d.car && (d.totalLaps == d.totalLaps && (d.connectedAt == d.connectedAt &&
    (d.loadedAt == d.loadedAt && (d.position == d.position && (d.gap == d.gap &&
    (d.lastSeen == d.lastSeen && (d.lastPosition == d.lastPosition && (d.inPits == d.inPits &&
    (d.spline == d.spline && (d.steerAngle == d.steerAngle && (d.status == d.status &&
    (d.blueFlag == d.blueFlag && (d.collisions == d.collisions &&
    d.sheets == d.sheets)))))))))))))) = true
  simp only [beq_self_eq_true, Coords.beq_self h.lastPosition, (Binary.beq_self_iff _).2 h.spline,
    hcollisions, hsheets, Bool.and_self]

theorem TrackMap.beq_self {m : TrackMap} (h : m.Numeric) : (m == m) = true := by
  obtain ⟨hwidth, hheight, hmargin, hscale, hx, hy⟩ := numeric_iff.1 h
  show (m.width == m.width && (m.height == m.height && (m.margin == m.margin &&
    (m.scale == m.scale && (m.offsetX == m.offsetX && m.offsetY == m.offsetY))))) = true
  rw [(Binary.beq_self_iff _).2 hwidth, (Binary.beq_self_iff _).2 hheight,
    (Binary.beq_self_iff _).2 hmargin, (Binary.beq_self_iff _).2 hscale,
    (Binary.beq_self_iff _).2 hx, (Binary.beq_self_iff _).2 hy]
  rfl

theorem Marker.beq_self {m : Marker} (h : m.Numeric) : (m == m) = true := by
  show (m.guid == m.guid && (m.initials == m.initials && (m.active == m.active &&
    (m.position == m.position && (m.speed == m.speed && (m.gear == m.gear && (m.rpm == m.rpm &&
    (m.maxRpm == m.maxRpm && m.steerAngle == m.steerAngle)))))))) = true
  simp only [beq_self_eq_true, Coords.beq_self h.1, (Binary.beq_self_iff _).2 h.2, Bool.and_self]

/-- **A NUMERIC BOARD EQUALS ITSELF.** -/
theorem Board.beq_self {b : Board} (h : b.Numeric) : (b == b) = true := by
  have hconn : (b.connected == b.connected) = true :=
    Keyed.beq_self fun d hd => Driver.beq_self (h.connected d hd)
  have hfiles : (b.disconnected == b.disconnected) = true :=
    Keyed.beq_self fun d hd => Driver.beq_self (h.disconnected d hd)
  have hmarkers : (b.markers == b.markers) = true :=
    Table.beq_self fun m hm => Marker.beq_self (h.markers m hm)
  show (b.initialised == b.initialised && (b.session == b.session && (b.startedAt == b.startedAt &&
    (b.updateMillis == b.updateMillis && (b.track == b.track && (b.map == b.map &&
    (b.connected == b.connected && (b.disconnected == b.disconnected && (b.cars == b.cars &&
    b.markers == b.markers))))))))) = true
  simp only [beq_self_eq_true, TrackMap.beq_self h.map, hconn, hfiles, hmarkers, Bool.and_self]

end Pitwall
