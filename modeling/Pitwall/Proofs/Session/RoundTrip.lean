import Pitwall.Proofs.Wire.Returning
import Pitwall.Session.Snapshot

/-!
# Snapshots return

What is read as a snapshot is read again from the text that is printed for it, with all that it
holds: **`Snapshot.readsBack_of_finite`**. Of numbers with a fraction alone it has to be known that
their texts read back. Type by type, values return as they are; what holds of received ones only is
that the kind of a session is the one of its code and that maps come in the order of their names
(**`Snapshot.Received`**).
-/

namespace Pitwall

variable {depth : Nat}

/-! ## Numbers with a fraction -/

def Coords.singles (p : Coords) : List Binary32 := [p.x, p.y, p.z]

def TrackMap.singles (m : TrackMap) : List Binary32 :=
  [m.width, m.height, m.margin, m.scale, m.offsetX, m.offsetY]

def LapSheet.doubles (s : LapSheet) : List Binary64 := [s.topSpeed, s.bestLapTopSpeed]

def Driver.singles (d : Driver) : List Binary32 :=
  d.spline :: d.lastPosition.singles ++ d.collisions.flatMap (·.damage.toList)

def Driver.doubles (d : Driver) : List Binary64 :=
  d.collisions.map (·.speed) ++ d.sheets.values.flatMap LapSheet.doubles

def Roster.singles (g : Roster) : List Binary32 := g.drivers.values.flatMap Driver.singles

def Roster.doubles (g : Roster) : List Binary64 := g.drivers.values.flatMap Driver.doubles

/-- The groups of drivers in a snapshot. -/
def Snapshot.rosters (s : Snapshot) : List Roster := s.connected.toList ++ s.disconnected.toList

/-- All numbers of single precision in a snapshot. -/
def Snapshot.singles (s : Snapshot) : List Binary32 :=
  s.map.singles ++ s.rosters.flatMap Roster.singles

/-- All doubles in a snapshot. -/
def Snapshot.doubles (s : Snapshot) : List Binary64 := s.rosters.flatMap Roster.doubles

/-- All these numbers are finite. -/
def Snapshot.Finite (s : Snapshot) : Prop :=
  (∀ x ∈ s.singles, x.isFinite = true) ∧ ∀ x ∈ s.doubles, x.isFinite = true

instance (s : Snapshot) : Decidable s.Finite :=
  inferInstanceAs (Decidable ((∀ x ∈ s.singles, x.isFinite = true) ∧ _))

/-! ## Types without such numbers -/

theorem Guid.exact_key : key.Exact := by
  rintro name ⟨text⟩
  exact Option.some_inj.trans (by rw [Guid.mk.injEq]; rfl)

theorem Guid.returns (g : Guid) : codec.Returns depth g := (Codec.returns_string g.text).map rfl

theorem Impact.returns (i : Impact) : codec.Returns depth i := by
  refine Codec.returns_oneOf ?_
  cases i <;> decide

theorem SessionKind.returns {k : SessionKind} (h : ofCode k.code = k) : codec.Returns depth k :=
  (Codec.returns_uint8 k.code).map h

theorem SessionInfo.returns {s : SessionInfo} (h : SessionKind.ofCode s.kind.code = s.kind) :
    record.codec.Returns (depth + 1) s :=
  Record.returns (by decide) <|
    .of (Codec.returns_uint8 _) <|
    .of (Codec.returns_uint8 _) <|
    .of (Codec.returns_uint8 _) <|
    .of (Codec.returns_uint8 _) <|
    .of (Codec.returns_string _) <|
    .of (Codec.returns_string _) <|
    .of (Codec.returns_string _) <|
    .of (Codec.returns_string _) <|
    .of (SessionKind.returns h) <|
    .of (Codec.returns_uint16 _) <|
    .of (Codec.returns_uint16 _) <|
    .of (Codec.returns_uint16 _) <|
    .of (Codec.returns_uint8 _) <|
    .of (Codec.returns_uint8 _) <|
    .of (Codec.returns_string _) <|
    .of (Codec.returns_int32 _) <|
    .of (Codec.returns_bool _) <|
    .nil rfl

theorem CarInfo.returns (c : CarInfo) : record.codec.Returns (depth + 1) c :=
  Record.returns (by decide) <|
    .of (Codec.returns_uint32 _) <|
    .of (Codec.returns_string _) <|
    .of (Guid.returns _) <|
    .of (Codec.returns_string _) <|
    .of (Codec.returns_string _) <|
    .of (Codec.returns_string _) <|
    .of (Codec.returns_string _) <|
    .of (Codec.returns_string _) <|
    .nil rfl

theorem TrackInfo.returns (t : TrackInfo) : record.codec.Returns (depth + 1) t :=
  Record.returns (by decide) <|
    .of (Codec.returns_anyText _) <|
    .of (Codec.returns_anyText _) <|
    .of (Codec.returns_anyText _) <|
    .of (Codec.returns_anyText _) <|
    .of (Codec.returns_anyText _) <|
    .of (Codec.returns_anyText _) <|
    .of (Codec.returns_anyText _) <|
    .of (Codec.returns_anyText _) <|
    .nil rfl

theorem Split.returns (s : Split) : record.codec.Returns (depth + 1) s :=
  Record.returns (by decide) <|
    .of (Codec.returns_uint8 _) <|
    .of (Codec.returns_int64 _) <|
    .of (Codec.returns_uint8 _) <|
    .of (Codec.returns_bool _) <|
    .of (Codec.returns_bool _) <|
    .nil rfl

theorem Split.returns_table (t : Table UInt8 Split) : tableCodec.Returns (depth + 2) t :=
  (Codec.Returns.table Codec.Key.exact_uint8 fun s _ => s.returns).nullAs rfl

/-! ## Types with such numbers -/

theorem Coords.returns {p : Coords} (h : ∀ x ∈ p.singles, Codec.single.ReadsBack x) :
    record.codec.Returns (depth + 1) p := by
  simp only [singles, List.forall_mem_cons] at h
  exact Record.returns (by decide) <|
    .of (Codec.returns_single h.1) <|
    .of (Codec.returns_single h.2.1) <|
    .of (Codec.returns_single h.2.2.1) <|
    .nil rfl

theorem TrackMap.returns {m : TrackMap} (h : ∀ x ∈ m.singles, Codec.single.ReadsBack x) :
    record.codec.Returns (depth + 1) m := by
  simp only [singles, List.forall_mem_cons] at h
  obtain ⟨hwidth, hheight, hmargin, hscale, hx, hy, -⟩ := h
  exact Record.returns (by decide) <|
    .of (Codec.returns_single hwidth) <|
    .of (Codec.returns_single hheight) <|
    .of (Codec.returns_single hmargin) <|
    .of (Codec.returns_single hscale) <|
    .of (Codec.returns_single hx) <|
    .orNamed <| .of (Codec.returns_single hy) <|
    .nil rfl

theorem LapSheet.returns {s : LapSheet} (h : ∀ x ∈ s.doubles, Codec.double.ReadsBack x) :
    record.codec.Returns (depth + 3) s := by
  simp only [doubles, List.forall_mem_cons] at h
  exact Record.returns (by decide) <|
    .of (Codec.returns_double h.1) <|
    .of (Codec.returns_double h.2.1) <|
    .of (Codec.returns_string _) <|
    .of (Codec.returns_int64 _) <|
    .of (Codec.returns_uint32 _) <|
    .of (Codec.returns_int64 _) <|
    .of (Codec.returns_instant _) <|
    .of (Codec.returns_int64 _) <|
    .of (Codec.returns_string _) <|
    .of (Split.returns_table _) <|
    .of (Split.returns_table _) <|
    .nil rfl

theorem Damage.returns {d : Damage} (h : ∀ x ∈ d.toList, Codec.single.ReadsBack x) :
    codec.Returns (depth + 1) d :=
  (Codec.Returns.list fun x hx => Codec.returns_single (h x hx)).map rfl

theorem Collision.returns {c : Collision} (hspeed : Codec.double.ReadsBack c.speed)
    (hdamage : ∀ x ∈ c.damage.toList, Codec.single.ReadsBack x) :
    record.codec.Returns (depth + 2) c :=
  Record.returns (by decide) <|
    .of (Codec.returns_uint32 _) <|
    .of (Impact.returns _) <|
    .of (Codec.returns_instant _) <|
    .of (Codec.Returns.option rfl fun g _ => g.returns) <|
    .of (Codec.Returns.option rfl fun name _ => Codec.returns_string name) <|
    .of (Codec.returns_double hspeed) <|
    .of (Damage.returns hdamage) <|
    .nil rfl

theorem Driver.returns {d : Driver} (hsingles : ∀ x ∈ d.singles, Codec.single.ReadsBack x)
    (hdoubles : ∀ x ∈ d.doubles, Codec.double.ReadsBack x) :
    record.codec.Returns (depth + 5) d := by
  simp only [singles, List.cons_append, List.forall_mem_cons, List.forall_mem_append,
    List.forall_mem_flatMap] at hsingles
  obtain ⟨hspline, hposition, hdamage⟩ := hsingles
  simp only [doubles, List.forall_mem_append, List.forall_mem_map, List.forall_mem_flatMap]
    at hdoubles
  obtain ⟨hspeed, hsheets⟩ := hdoubles
  exact Record.returns (by decide) <|
    .of (CarInfo.returns _) <|
    .of (Codec.returns_uint32 _) <|
    .of (Codec.returns_instant _) <|
    .of (Codec.returns_instant _) <|
    .of (Codec.returns_int32 _) <|
    .of (Codec.returns_string _) <|
    .of (Codec.returns_instant _) <|
    .of (Coords.returns hposition) <|
    .of (Codec.returns_bool _) <|
    .of (Codec.returns_single hspline) <|
    .of (Codec.returns_uint8 _) <|
    .of (Codec.returns_uint32 _) <|
    .of (Codec.returns_bool _) <|
    .of (.nullAs rfl (.list fun c hc => Collision.returns (hspeed c hc) (hdamage c hc))) <|
    .of (.nullAs rfl (.table Codec.Key.exact_string fun s hs => LapSheet.returns (hsheets s hs))) <|
    .nil rfl

/-- Drivers in the order of their GUIDs return. -/
theorem Roster.returns {g : Roster} (hascending : Guid.key.Ascending g.drivers)
    (hsingles : ∀ x ∈ g.singles, Codec.single.ReadsBack x)
    (hdoubles : ∀ x ∈ g.doubles, Codec.double.ReadsBack x) :
    record.codec.Returns (depth + 7) g := by
  simp only [singles, doubles, List.forall_mem_flatMap] at hsingles hdoubles
  exact Record.returns (by decide) <|
    .of (.nullAs rfl (.keyed Guid.exact_key hascending fun d hd =>
      Driver.returns (hsingles d hd) (hdoubles d hd))) <|
    .of (.nullAs rfl (.list fun g _ => g.returns)) <|
    .nil rfl

/-! ## Snapshots -/

namespace Snapshot

/-- What holds of every snapshot that is read from the value of a text: the kind of the session is
the one of its code, and the maps come in the order of their names. -/
structure Received (s : Snapshot) : Prop where
  kind : SessionKind.ofCode s.session.kind.code = s.session.kind
  connected : ∀ g ∈ s.connected, Guid.key.Ascending g.drivers
  disconnected : ∀ g ∈ s.disconnected, Guid.key.Ascending g.drivers
  cars : Codec.Key.uint32.Ascending s.cars

theorem returns {s : Snapshot} (h : s.Received)
    (hsingles : ∀ x ∈ s.singles, Codec.single.ReadsBack x)
    (hdoubles : ∀ x ∈ s.doubles, Codec.double.ReadsBack x) :
    record.codec.Returns (depth + 8) s := by
  simp only [singles, rosters, List.forall_mem_append, List.forall_mem_flatMap,
    Option.mem_toList] at hsingles
  obtain ⟨hmap, hconnected, hdisconnected⟩ := hsingles
  simp only [doubles, rosters, List.forall_mem_append, List.forall_mem_flatMap,
    Option.mem_toList] at hdoubles
  obtain ⟨hconnected', hdisconnected'⟩ := hdoubles
  exact Record.returns (by decide) <|
    .of (SessionInfo.returns h.kind) <|
    .of (Codec.returns_instant _) <|
    .of (Codec.returns_uint32 _) <|
    .of (TrackInfo.returns _) <|
    .of (TrackMap.returns hmap) <|
    .of (.option rfl fun g hg =>
      Roster.returns (h.connected g hg) (hconnected g hg) (hconnected' g hg)) <|
    .of (.option rfl fun g hg =>
      Roster.returns (h.disconnected g hg) (hdisconnected g hg) (hdisconnected' g hg)) <|
    .of (.nullAs rfl (.keyed Codec.Key.exact_uint32 h.cars fun g _ => g.returns)) <|
    .nil rfl

end Snapshot

/-! ## What is received -/

theorem SessionInfo.yieldsFrom_ordered :
    record.codec.YieldsFrom Json.Ordered fun s => SessionKind.ofCode s.kind.code = s.kind := by
  have hkind : SessionKind.codec.YieldsFrom Json.Ordered fun k => SessionKind.ofCode k.code = k :=
    (Codec.uint8.yieldsFrom_true).map _ fun code _ => by rw [SessionKind.code_ofCode]
  refine Record.yieldsFrom_codec Json.hereditary_ordered rfl ?_
  simp only [record, List.forall_mem_cons]
  refine ⟨?_, ?_, ?_, ?_, ?_, ?_, ?_, ?_, ?kind, ?_, ?_, ?_, ?_, ?_, ?_, ?_, ?_,
    List.forall_mem_nil _⟩
  case kind => exact Field.keepsFrom_of hkind fun _ _ _ hk => hk
  all_goals exact Field.keepsFrom_of_any fun _ _ h => h

theorem Roster.yieldsFrom_ordered :
    record.codec.YieldsFrom Json.Ordered fun g => Guid.key.Ascending g.drivers := by
  refine Record.yieldsFrom_codec Json.hereditary_ordered Guid.key.ascending_empty ?_
  simp only [record, List.forall_mem_cons]
  refine ⟨?_, ?_, List.forall_mem_nil _⟩
  · exact Field.keepsFrom_of
      ((Codec.yieldsFrom_keyed Guid.exact_key _).nullAs Guid.key.ascending_empty) fun _ _ _ hv => hv
  · exact Field.keepsFrom_of_any fun _ _ h => h

namespace Snapshot

theorem yieldsFrom_ordered : record.codec.YieldsFrom Json.Ordered Received := by
  refine Record.yieldsFrom_codec Json.hereditary_ordered
    ⟨rfl, (fun _ h => nomatch h), (fun _ h => nomatch h), Codec.Key.uint32.ascending_empty⟩ ?_
  simp only [record, List.forall_mem_cons]
  refine ⟨?session, ?_, ?_, ?_, ?_, ?connected, ?disconnected, ?cars, List.forall_mem_nil _⟩
  case session =>
    exact Field.keepsFrom_of SessionInfo.yieldsFrom_ordered
      fun _ _ h hv => ⟨hv, h.connected, h.disconnected, h.cars⟩
  case connected =>
    exact Field.keepsFrom_of Roster.yieldsFrom_ordered.option
      fun _ _ h hv => ⟨h.kind, hv, h.disconnected, h.cars⟩
  case disconnected =>
    exact Field.keepsFrom_of Roster.yieldsFrom_ordered.option
      fun _ _ h hv => ⟨h.kind, h.connected, hv, h.cars⟩
  case cars =>
    exact Field.keepsFrom_of
      ((Codec.yieldsFrom_keyed Codec.Key.exact_uint32 _).nullAs Codec.Key.uint32.ascending_empty)
      fun _ _ h hv => ⟨h.kind, h.connected, h.disconnected, hv⟩
  all_goals
    exact Field.keepsFrom_of_any fun _ _ h => ⟨h.kind, h.connected, h.disconnected, h.cars⟩

/-- **SNAPSHOTS RETURN**: what is read as a snapshot of finite numbers is read again from the text
that is printed for it, if the texts of these numbers read back. -/
theorem readsBack_of_finite {text : String} {j : Json} {s : Snapshot}
    (hparse : Json.parse text = some j) (hread : record.codec.read j = some s) (hfinite : s.Finite)
    (hsingles : ∀ x ∈ s.singles, x.isFinite = true → Codec.single.ReadsBack x)
    (hdoubles : ∀ x ∈ s.doubles, x.isFinite = true → Codec.double.ReadsBack x) :
    record.codec.ReadsBack s := by
  obtain ⟨w, -, hvalue⟩ := Option.bind_eq_some_iff.1 hparse
  have hordered : j.Ordered := Json.Written.ordered_of_value? hvalue
  have hreceived : s.Received := yieldsFrom_ordered j s hordered hread
  have hreturns : record.codec.Returns (119 + 8) s :=
    returns hreceived (fun x hx => hsingles x hx (hfinite.1 x hx))
      fun x hx => hdoubles x hx (hfinite.2 x hx)
  exact hreturns.readsBack

/-- The lines of a text that is far from what is printed: most fields are missing, the time of the
start has an offset, a number stands for a text, a field goes by its other name, keys come in any
order. -/
def looseLines : List String :=
  ["\x7b\"SessionInfo\":\x7b\"Type\":9\x7d,\"SessionStartTime\":",
   "\"2024-03-01T12:00:00.5+01:00\",",
   "\"TrackInfo\":\x7b\"pitboxes\":40\x7d,\"TrackMapData\":\x7b\"offset_z\":-12.5\x7d,",
   "\"ConnectedDrivers\":\x7b\"Drivers\":\x7b\"g\":\x7b\"NormalisedSplinePos\":0.25,",
   "\"Collisions\":[\x7b\"Type\":\"with environment\",\"DamageZones\":[0.5]\x7d],",
   "\"Cars\":\x7b\"m3\":\x7b\"TopSpeedBestLap\":212.5,",
   "\"BestLapSplits\":\x7b\"10\":\x7b\x7d,\"9\":\x7b\x7d\x7d\x7d\x7d\x7d\x7d\x7d,",
   "\"CarIDToGUID\":\x7b\"7\":\"g\",\"12\":\"h\"\x7d\x7d"]

/-- The text of these lines. -/
def looseText : String := String.ofList (looseLines.flatMap String.toList)

/-- The snapshot of that text. -/
def loose : Snapshot :=
  let sheet : LapSheet :=
    { bestLapTopSpeed := .ofFraction 425 2, bestSplits := .ofList [(9, {}), (10, {})] }
  let collision : Collision := { impact := .environment, damage := { front := .ofFraction 1 2 } }
  let driver : Driver :=
    { spline := .ofFraction 1 4, collisions := [collision], sheets := .ofList [("m3", sheet)] }
  { session := { kind := .other 9 }
    startedAt := ⟨63844887600, 500000000, by decide, by decide, by decide, by decide⟩
    track := { pitboxes := "40" }
    map := { offsetY := .ofRatio true (25 * Format.single.one) 2 }
    connected := some { drivers := .ofList [(⟨"g"⟩, driver)] }
    cars := .ofList [(12, ⟨"h"⟩), (7, ⟨"g"⟩)] }

/-- The text is read as that snapshot, which reads back once it has been written. -/
theorem readsBack_loose : (Json.parse looseText).bind record.codec.read = some loose ∧
    record.codec.ReadsBack loose := by
  have hboth : (Json.parse looseText).bind record.codec.read = some loose := by
    rw [Json.parse, looseText, String.toList_ofList]
    decide +kernel
  obtain ⟨j, hparse, hread⟩ := Option.bind_eq_some_iff.1 hboth
  have hsingles : ∀ x ∈ loose.singles, Codec.single.ReadsBack x := by decide +kernel
  have hdoubles : ∀ x ∈ loose.doubles, Codec.double.ReadsBack x := by decide +kernel
  exact ⟨hboth, readsBack_of_finite hparse hread (by decide +kernel) (fun x hx _ => hsingles x hx)
    fun x hx _ => hdoubles x hx⟩

end Snapshot

end Pitwall
