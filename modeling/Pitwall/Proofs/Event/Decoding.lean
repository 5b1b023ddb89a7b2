import Pitwall.Event.Envelope
import Pitwall.Proofs.Event.Numeric
import Pitwall.Proofs.Wire.Numeric

/-!
# Decoding — events from texts are numeric

Every record of an event starts without NaN, and none of its fields brings one in. So no text of a
message says NaN: **`Message.numeric_of_decode?`**.
-/

namespace Pitwall

theorem Coords.yields_codec : record.codec.Yields Numeric := by
  refine Record.yields_codec numeric_default ?_
  simp only [record, List.forall_mem_cons]
  refine ⟨?_, ?_, ?_, List.forall_mem_nil _⟩
  · exact Field.keeps_of Codec.yields_single fun _ _ h hx => ⟨hx, h.2⟩
  · exact Field.keeps_of Codec.yields_single fun _ _ h hy => ⟨h.1, hy, h.2.2⟩
  · exact Field.keeps_of Codec.yields_single fun _ _ h hz => ⟨h.1, h.2.1, hz⟩

theorem Damage.yields_codec : codec.Yields Numeric := by
  refine (Codec.Yields.list Codec.yields_single).map _ fun vs hvs => ?_
  have hget : ∀ i, (vs.getD i default).IsNumber := by
    intro i
    rw [List.getD_eq_getElem?_getD]
    cases hi : vs[i]? with
    | none => exact Binary.isNumber_default (by decide)
    | some v => exact hvs v (List.mem_of_getElem? hi)
  exact numeric_iff.2 ⟨hget 0, hget 1, hget 2, hget 3⟩

theorem Collision.yields_codec : record.codec.Yields Numeric := by
  refine Record.yields_codec numeric_default ?_
  simp only [record, List.forall_mem_cons]
  refine ⟨?_, ?_, ?_, ?_, ?_, ?speed, ?damage, List.forall_mem_nil _⟩
  case speed => exact Field.keeps_of Codec.yields_double fun _ _ h hv => ⟨hv, h.2⟩
  case damage => exact Field.keeps_of Damage.yields_codec fun _ _ h hv => ⟨h.1, hv⟩
  all_goals exact Field.keeps_of_any fun _ _ h => h

theorem LapSheet.yields_codec : record.codec.Yields Numeric := by
  refine Record.yields_codec numeric_default ?_
  simp only [record, List.forall_mem_cons]
  refine ⟨?speed, ?best, ?_, ?_, ?_, ?_, ?_, ?_, ?_, ?_, ?_, List.forall_mem_nil _⟩
  case speed => exact Field.keeps_of Codec.yields_double fun _ _ h hv => ⟨hv, h.2⟩
  case best => exact Field.keeps_of Codec.yields_double fun _ _ h hv => ⟨h.1, hv⟩
  all_goals exact Field.keeps_of_any fun _ _ h => h

theorem Driver.yields_codec : record.codec.Yields Numeric := by
  refine Record.yields_codec numeric_default ?_
  simp only [record, List.forall_mem_cons]
  refine ⟨?_, ?_, ?_, ?_, ?_, ?_, ?_, ?position, ?_, ?spline, ?_, ?_, ?_, ?collisions, ?sheets,
    List.forall_mem_nil _⟩
  case position =>
    exact Field.keeps_of Coords.yields_codec fun _ _ h hv => ⟨h.spline, hv, h.collisions, h.sheets⟩
  case spline =>
    exact Field.keeps_of Codec.yields_single
      fun _ _ h hv => ⟨hv, h.lastPosition, h.collisions, h.sheets⟩
  case collisions =>
    exact Field.keeps_of (Collision.yields_codec.list.nullAs (List.forall_mem_nil _))
      fun _ _ h hv => ⟨h.spline, h.lastPosition, hv, h.sheets⟩
  case sheets =>
    exact Field.keeps_of ((LapSheet.yields_codec.table _).nullAs (List.forall_mem_nil _))
      fun _ _ h hv => ⟨h.spline, h.lastPosition, h.collisions, hv⟩
  all_goals
    exact Field.keeps_of_any fun _ _ h => ⟨h.spline, h.lastPosition, h.collisions, h.sheets⟩

theorem TrackMap.yields_codec : record.codec.Yields Numeric := by
  refine Record.yields_codec numeric_default ?_
  simp only [record, List.forall_mem_cons]
  refine ⟨?_, ?_, ?_, ?_, ?_, Field.Keeps.orNamed ?_ _, List.forall_mem_nil _⟩
  all_goals
    refine Field.keeps_of Codec.yields_single fun m x h hx => numeric_iff.2 ?_
    obtain ⟨hwidth, hheight, hmargin, hscale, hoffsetX, hoffsetY⟩ := numeric_iff.1 h
  · exact ⟨hx, hheight, hmargin, hscale, hoffsetX, hoffsetY⟩
  · exact ⟨hwidth, hx, hmargin, hscale, hoffsetX, hoffsetY⟩
  · exact ⟨hwidth, hheight, hx, hscale, hoffsetX, hoffsetY⟩
  · exact ⟨hwidth, hheight, hmargin, hx, hoffsetX, hoffsetY⟩
  · exact ⟨hwidth, hheight, hmargin, hscale, hx, hoffsetY⟩
  · exact ⟨hwidth, hheight, hmargin, hscale, hoffsetX, hx⟩

theorem Roster.yields_codec : record.codec.Yields Numeric := by
  refine Record.yields_codec (List.forall_mem_nil _) ?_
  simp only [record, List.forall_mem_cons]
  refine ⟨?drivers, ?_, List.forall_mem_nil _⟩
  case drivers =>
    exact Field.keeps_of ((Driver.yields_codec.keyed _).nullAs (List.forall_mem_nil _))
      fun _ _ _ hv => hv
  · exact Field.keeps_of_any fun _ _ h => h

theorem Snapshot.yields_codec : record.codec.Yields Numeric := by
  refine Record.yields_codec numeric_default ?_
  simp only [record, List.forall_mem_cons]
  refine ⟨?_, ?_, ?_, ?_, ?map, ?connected, ?disconnected, ?_,
    List.forall_mem_nil _⟩
  case map =>
    exact Field.keeps_of TrackMap.yields_codec fun _ _ h hv => ⟨hv, h.connected, h.disconnected⟩
  case connected =>
    exact Field.keeps_of Roster.yields_codec.option fun _ _ h hv => ⟨h.map, hv, h.disconnected⟩
  case disconnected =>
    exact Field.keeps_of Roster.yields_codec.option fun _ _ h hv => ⟨h.map, h.connected, hv⟩
  all_goals exact Field.keeps_of_any fun _ _ h => ⟨h.map, h.connected, h.disconnected⟩

theorem Telemetry.yields_codec : record.codec.Yields Numeric := by
  refine Record.yields_codec numeric_default ?_
  simp only [record, List.forall_mem_cons]
  refine ⟨?_, ?position, ?velocity, ?_, ?_, ?spline, ?_, ?_, List.forall_mem_nil _⟩
  case position =>
    exact Field.keeps_of Coords.yields_codec fun _ _ h hv => ⟨hv, h.velocity, h.spline⟩
  case velocity =>
    exact Field.keeps_of Coords.yields_codec fun _ _ h hv => ⟨h.position, hv, h.spline⟩
  case spline =>
    exact Field.keeps_of Codec.yields_single fun _ _ h hv => ⟨h.position, h.velocity, hv⟩
  all_goals exact Field.keeps_of_any fun _ _ h => ⟨h.position, h.velocity, h.spline⟩

theorem CollisionReport.yields_codec : record.codec.Yields Numeric := by
  refine Record.yields_codec numeric_default ?_
  simp only [record, List.forall_mem_cons]
  refine ⟨?_, ?_, ?speed, ?position, ?relative, ?damage, List.forall_mem_nil _⟩
  case speed =>
    exact Field.keeps_of Codec.yields_single
      fun _ _ h hv => ⟨hv, h.position, h.relativePosition, h.damage⟩
  case position =>
    exact Field.keeps_of Coords.yields_codec
      fun _ _ h hv => ⟨h.speed, hv, h.relativePosition, h.damage⟩
  case relative =>
    exact Field.keeps_of Coords.yields_codec fun _ _ h hv => ⟨h.speed, h.position, hv, h.damage⟩
  case damage =>
    exact Field.keeps_of Damage.yields_codec
      fun _ _ h hv => ⟨h.speed, h.position, h.relativePosition, hv⟩
  all_goals
    exact Field.keeps_of_any fun _ _ h => ⟨h.speed, h.position, h.relativePosition, h.damage⟩

theorem Envelope.numeric_of_ofText? {text : String} {e : Envelope}
    (h : record.ofText? text = some e) : e.payload.Numeric := by
  refine Record.of_ofText? (P := fun e : Envelope => e.payload.Numeric) .null ?_ h
  simp only [record, List.forall_mem_cons]
  refine ⟨Field.Keeps.needed ?_, ?payload, List.forall_mem_nil _⟩
  case payload => exact Field.keeps_of Codec.yields_json fun _ _ _ hv => hv
  · exact Field.keeps_of_any fun _ _ h => h

namespace Message

theorem numeric_of_collision? {impact : Impact} {payload : Json} (hp : payload.Numeric) {ev : Event}
    (h : collision? impact payload = some ev) : ev.Numeric := by
  obtain ⟨c, hc, rfl⟩ := Option.map_eq_some_iff.1 h
  have hnum := CollisionReport.yields_codec payload c hp hc
  cases impact with
  | car => exact ⟨hnum.speed, hnum.position, hnum.relativePosition, hnum.damage⟩
  | environment => exact ⟨hnum.speed, hnum.position, hnum.relativePosition, hnum.damage⟩

/-- A payload without NaN makes an event without NaN, whatever its kind. -/
theorem numeric_of_ofPayload? {payload : Json} (hp : payload.Numeric) {tag : Tag} {ev : Event}
    (h : ofPayload? payload tag = some (.event ev)) : ev.Numeric := by
  cases tag with
  | raceControl =>
      obtain ⟨s, hs, heq⟩ := Option.map_eq_some_iff.1 h
      cases heq
      exact Snapshot.yields_codec payload s hp hs
  | carUpdate =>
      obtain ⟨t, ht, heq⟩ := Option.map_eq_some_iff.1 h
      cases heq
      exact Telemetry.yields_codec payload t hp ht
  | collisionWithCar =>
      obtain ⟨c, hc, heq⟩ := Option.map_eq_some_iff.1 h
      cases heq
      exact numeric_of_collision? hp hc
  | collisionWithEnvironment =>
      obtain ⟨c, hc, heq⟩ := Option.map_eq_some_iff.1 h
      cases heq
      exact numeric_of_collision? hp hc
  | version =>
      obtain ⟨v, -, heq⟩ := Option.map_eq_some_iff.1 h
      cases heq
  | endSession | error | carInfo | clientEvent =>
      cases h
      trivial
  | _ =>
      obtain ⟨v, -, heq⟩ := Option.map_eq_some_iff.1 h
      cases heq
      trivial

/-- **NO TEXT SAYS NaN**: events that are decoded are numeric. -/
theorem numeric_of_decode? {text : String} {ev : Event} (h : decode? text = some (.event ev)) :
    ev.Numeric := by
  obtain ⟨e, he, hmessage⟩ := Option.bind_eq_some_iff.1 h
  obtain ⟨tag, -, hpayload⟩ := Option.bind_eq_some_iff.1 hmessage
  exact numeric_of_ofPayload? (Envelope.numeric_of_ofText? he) hpayload

end Message

end Pitwall
