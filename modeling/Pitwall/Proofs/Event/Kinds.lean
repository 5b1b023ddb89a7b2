import Pitwall.Proofs.Event.Envelopes

/-!
# Kinds of messages — what a text is decoded to

The code of an envelope says what kind of message it is, and the kind what the payload has to be
(`Tag.Takes`). Three tables have to agree on that: codes of kinds, payloads of kinds, and kinds of
events. **`Message.decode_by_kind`** says what they come to for the text of a message.
-/

namespace Pitwall

namespace Tag

/-- The payload is one that messages of the kind carry. Results and errors are given as any JSON,
and what is ignored is not looked at. -/
def Takes (payload : Json) : Tag → Prop
  | .version => ∃ n, Codec.uint16.read payload = some n
  | .raceControl => ∃ s, Snapshot.record.codec.read payload = some s
  | .newSession | .sessionInfo => ∃ s, SessionInfo.record.codec.read payload = some s
  | .newConnection | .connectionClosed | .tyresChanged =>
    ∃ car, CarInfo.record.codec.read payload = some car
  | .clientLoaded => ∃ carId, Codec.uint32.read payload = some carId
  | .carUpdate => ∃ t, Telemetry.record.codec.read payload = some t
  | .collisionWithCar | .collisionWithEnvironment =>
    ∃ c, CollisionReport.record.codec.read payload = some c
  | .lapCompleted => ∃ l, LapReport.record.codec.read payload = some l
  | .splitCompleted => ∃ s, SplitReport.record.codec.read payload = some s
  | .chat => ∃ m, ChatMessage.record.codec.read payload = some m
  | .endSession | .error | .carInfo | .clientEvent => True

/-- The codes that kinds have. -/
def codes : List UInt16 :=
  [10, 11, 50, 51, 52, 53, 54, 55, 56, 57, 58, 59, 60, 73, 100, 101, 130, 200]

theorem codes_eq : codes = all.map code := rfl

/-- A kind is found under its own code alone. -/
theorem ofCode?_eq_some_iff {code : UInt16} {t : Tag} : ofCode? code = some t ↔ t.code = code := by
  constructor
  · exact code_of_ofCode?
  · rintro rfl
    exact ofCode?_code t

theorem ofCode?_eq_none_iff {code : UInt16} : ofCode? code = none ↔ code ∉ codes := by
  rw [codes_eq, ofCode?, List.find?_eq_none, List.mem_map]
  simp

end Tag

namespace Message

variable {payload : Json} {tag : Tag}

/-- What makes a message of a kind is a payload of the kind. -/
theorem ofPayload?_eq_none_iff : ofPayload? payload tag = none ↔ ¬ tag.Takes payload := by
  have hsome : (ofPayload? payload tag).isSome ↔ tag.Takes payload := by
    cases tag <;>
      simp [ofPayload?, Tag.Takes, collision?, Option.isSome_iff_exists]
  rw [← hsome, Option.not_isSome_iff_eq_none]

/-- An event comes from a message of its own kind. -/
theorem tag_of_ofPayload? {ev : Event} (h : ofPayload? payload tag = some (.event ev)) :
    ev.tag = tag := by
  cases tag with
  | version =>
      obtain ⟨n, -, heq⟩ := Option.map_eq_some_iff.1 h
      cases heq
  | collisionWithCar | collisionWithEnvironment =>
      obtain ⟨ev, hev, heq⟩ := Option.map_eq_some_iff.1 h
      obtain ⟨c, -, rfl⟩ := Option.map_eq_some_iff.1 hev
      cases heq
      rfl
  | endSession | error | carInfo | clientEvent =>
      cases h
      rfl
  | _ =>
      obtain ⟨v, -, heq⟩ := Option.map_eq_some_iff.1 h
      cases heq
      rfl

/-- Only messages of one kind change the version, and their payload is the version. -/
theorem ofPayload?_eq_versionChanged_iff {n : UInt16} :
    ofPayload? payload tag = some (.versionChanged n) ↔
      tag = .version ∧ payload = Codec.uint16.write n := by
  constructor
  · intro h
    cases tag with
    | version =>
        obtain ⟨m, hm, heq⟩ := Option.map_eq_some_iff.1 h
        obtain rfl : m = n := versionChanged.inj heq
        exact ⟨rfl, (Codec.exact_uint16 payload m).1 hm⟩
    | endSession | error | carInfo | clientEvent => cases h
    | _ =>
        obtain ⟨v, -, heq⟩ := Option.map_eq_some_iff.1 h
        cases heq
  · rintro ⟨rfl, rfl⟩
    exact Option.map_eq_some_iff.2 ⟨n, Codec.exact_uint16.faithful n, rfl⟩

/-- Who hits no car has no other car. -/
theorem collision_of_environment {ev : Event}
    (h : ofPayload? payload .collisionWithEnvironment = some (.event ev)) :
    ∃ c, ev = .collision c ∧ c.otherCarId = none := by
  obtain ⟨ev, hev, heq⟩ := Option.map_eq_some_iff.1 h
  obtain ⟨c, -, rfl⟩ := Option.map_eq_some_iff.1 hev
  cases heq
  exact ⟨_, rfl, rfl⟩

/-- A message is decoded from an envelope with the code of a kind and a payload of the kind. -/
theorem decode?_eq_some_iff {text : String} {m : Message} :
    decode? text = some m ↔ ∃ e : Envelope, e.IsText text ∧
      ∃ tag : Tag, tag.code = e.code ∧ ofPayload? e.payload tag = some m := by
  rw [decode?, Option.bind_eq_bind, Option.bind_eq_some_iff]
  simp only [Envelope.ofText?_eq_some_iff, ofEnvelope?, Option.bind_eq_some_iff,
    Tag.ofCode?_eq_some_iff]

/-- Nothing is decoded where there is no envelope, no kind with its code, or no fitting payload. -/
theorem decode?_eq_none_iff {text : String} :
    decode? text = none ↔ (∀ e : Envelope, ¬ e.IsText text) ∨
      ∃ e : Envelope, e.IsText text ∧
        (e.code ∉ Tag.codes ∨ ∃ tag : Tag, tag.code = e.code ∧ ¬ tag.Takes e.payload) := by
  simp only [← Envelope.ofText?_eq_some_iff, decode?, Option.bind_eq_bind]
  cases Envelope.record.ofText? text with
  | none => simp
  | some e =>
      rw [Option.bind_some, ofEnvelope?]
      cases htag : Tag.ofCode? e.code with
      | none => simp [Tag.ofCode?_eq_none_iff.1 htag]
      | some tag =>
          have hcode := Tag.ofCode?_eq_some_iff.1 htag
          have hknown : e.code ∈ Tag.codes := by
            rw [Tag.codes_eq, ← hcode]
            exact List.mem_map_of_mem (List.mem_of_find?_eq_some htag)
          rw [Option.bind_some, ofPayload?_eq_none_iff]
          constructor
          · intro h
            exact .inr ⟨e, rfl, .inr ⟨tag, hcode, h⟩⟩
          · rintro (hno | ⟨e', he', hno | ⟨tag', hcode', hno⟩⟩)
            · exact absurd rfl (hno e)
            · obtain rfl := Option.some.inj he'
              exact absurd hknown hno
            · obtain rfl := Option.some.inj he'
              rw [← Tag.ofCode?_eq_some_iff, htag] at hcode'
              obtain rfl := Option.some.inj hcode'
              exact hno

/-- **DECODING GOES BY THE KIND**: whatever the text, an event comes from an envelope with the code
of the event's own kind; the version changes exactly by a message of code 56 with the version for a
payload; a collision with the environment has no other car; and nothing is decoded exactly where the
text is no envelope, the code is none of the eighteen, or the payload is not one of the kind. -/
theorem decode_by_kind (text : String) :
    (∀ ev, decode? text = some (.event ev) →
      ∃ e : Envelope, e.IsText text ∧ ev.tag.code = e.code) ∧
    (∀ n, decode? text = some (.versionChanged n) ↔
      ∃ e : Envelope, e.IsText text ∧ e.code = 56 ∧ e.payload = .num (.int n.toNat)) ∧
    (∀ ev, decode? text = some (.event ev) → ev.tag = .collisionWithEnvironment →
      ∃ c, ev = .collision c ∧ c.otherCarId = none) ∧
    (decode? text = none ↔ (∀ e : Envelope, ¬ e.IsText text) ∨
      ∃ e : Envelope, e.IsText text ∧
        (e.code ∉ Tag.codes ∨ ∃ tag : Tag, tag.code = e.code ∧ ¬ tag.Takes e.payload)) := by
  refine ⟨?_, ?_, ?_, decode?_eq_none_iff⟩
  · intro ev h
    obtain ⟨e, he, tag, hcode, hev⟩ := decode?_eq_some_iff.1 h
    exact ⟨e, he, tag_of_ofPayload? hev ▸ hcode⟩
  · intro n
    rw [decode?_eq_some_iff]
    constructor
    · rintro ⟨e, he, tag, hcode, hversion⟩
      obtain ⟨rfl, hpayload⟩ := ofPayload?_eq_versionChanged_iff.1 hversion
      exact ⟨e, he, hcode.symm, hpayload⟩
    · rintro ⟨e, he, hcode, hpayload⟩
      exact ⟨e, he, .version, hcode.symm, ofPayload?_eq_versionChanged_iff.2 ⟨rfl, hpayload⟩⟩
  · intro ev h htag
    obtain ⟨e, -, tag, -, hev⟩ := decode?_eq_some_iff.1 h
    obtain rfl : tag = .collisionWithEnvironment := (tag_of_ofPayload? hev).symm.trans htag
    exact collision_of_environment hev

/-- A crash into a wall that names another car. -/
def wallCrash : String := "\x7b\"EventType\":11,\"Message\":\x7b\"OtherCarID\":2\x7d\x7d"

/-- The crash is read without the other car; a version and a code that no kind has are told
apart. -/
theorem decode_by_kind_of_texts :
    (∃ c, decode? wallCrash = some (.event (.collision c)) ∧ c.otherCarId = none) ∧
    decode? "[56,4]" = some (.versionChanged 4) ∧ decode? "[199]" = none := by
  refine ⟨?_, ?_, ?_⟩
  · have heleven : ∀ e : Envelope, e.IsText wallCrash → e.code = 11 := by
      intro e he
      have hcode : (Envelope.record.ofText? wallCrash).map Envelope.code = some 11 := by
        decide +kernel
      rw [Envelope.ofText?_eq_some_iff.2 he] at hcode
      exact Option.some.inj hcode
    obtain ⟨m, hm⟩ : ∃ m, decode? wallCrash = some m :=
      Option.isSome_iff_exists.1 (by decide +kernel)
    cases m with
    | versionChanged n =>
        obtain ⟨e, he, hcode, -⟩ := ((decode_by_kind wallCrash).2.1 n).1 hm
        rw [heleven e he] at hcode
        cases hcode
    | event ev =>
        obtain ⟨e, he, hcode⟩ := (decode_by_kind wallCrash).1 ev hm
        rw [heleven e he, ← Tag.ofCode?_eq_some_iff] at hcode
        have htag : ev.tag = .collisionWithEnvironment := (Option.some.inj hcode).symm
        obtain ⟨c, rfl, hc⟩ := (decode_by_kind wallCrash).2.2.1 ev hm htag
        exact ⟨c, hm, hc⟩
  · exact ((decode_by_kind _).2.1 4).2
      ⟨⟨56, .num (.int 4)⟩, Envelope.ofText?_eq_some_iff.1 rfl, rfl, rfl⟩
  · exact (decode_by_kind _).2.2.2.2
      (.inr ⟨⟨199, .null⟩, Envelope.ofText?_eq_some_iff.1 rfl, .inl (by decide)⟩)

end Message

end Pitwall
