import Pitwall.Event.Envelope
import Pitwall.Proofs.Wire.Exact
import Pitwall.Proofs.Wire.Known

/-!
# Envelopes — which texts hold a message

What an envelope looks like is said here by the tree of its text, without the reader: an object with
one code and at most one payload, or an array of code and payload (`Envelope.Spelt`). The reader
finds exactly these: **`Envelope.ofText?_eq_some_iff`**.
-/

namespace Pitwall

open Json (Written)
open Json.Written (IsField named)

/-! ## The spelling of an envelope -/

namespace Envelope

/-- The payload that is given, or `null` if none is. -/
inductive Gives (payload : Json) : List Written → Prop
  | nothing : payload = .null → Gives payload []
  | one {w : Written} : w.value? (Json.depthLimit - 1) = some payload → Gives payload [w]

/-- The code as a whole number. -/
def writtenCode (e : Envelope) : Written := .num (some (.int e.code.toNat))

/-- The trees that spell an envelope. -/
inductive Spelt (e : Envelope) : Written → Prop
  /-- In an object every name has to be readable, but not what stands under other names. -/
  | object {fields : List (Option String × Written)} :
    (∀ f ∈ fields, f.1.isSome) → named "EventType" fields = [e.writtenCode] →
    Gives e.payload (named "Message" fields) → Spelt e (.obj fields)
  /-- In an array the code comes first. -/
  | array {items : List Written} : Gives e.payload items → Spelt e (.arr (e.writtenCode :: items))

/-- The text spells the envelope. -/
def IsText (e : Envelope) (text : String) : Prop :=
  ∃ w, Written.read? text.toList = some w ∧ e.Spelt w

theorem value?_writtenCode (e : Envelope) (depth : Nat) :
    e.writtenCode.value? depth = some (Codec.uint16.write e.code) := rfl

/-- A payload is given as far as what stands there has a value. -/
theorem gives_iff {payload : Json} {ws : List Written} :
    Gives payload ws ↔ ∃ js, Json.Written.values? (Json.depthLimit - 1) ws = some js ∧
      (js = [] ∧ payload = .null ∨ js = [payload]) := by
  simp only [Json.Written.values?_eq_some_iff]
  constructor
  · rintro (hnull | hvalue)
    · exact ⟨[], .nil, .inl ⟨rfl, hnull⟩⟩
    · exact ⟨[payload], .cons hvalue .nil, .inr rfl⟩
  · rintro ⟨js, hjs, ⟨rfl, hnull⟩ | rfl⟩
    · rw [List.forall₂_nil_right_iff.1 hjs]
      exact .nothing hnull
    · obtain ⟨w, rest, hw, hrest, rfl⟩ := List.forall₂_cons_right_iff.1 hjs
      rw [List.forall₂_nil_right_iff.1 hrest]
      exact .one hw

/-- Code and payload are set one after the other. -/
theorem readObject_eq_some_iff {object : List (String × Json)} {e : Envelope} :
    record.readObject object = some e ↔
      (object.filter fun f => f.1 == "EventType").map Prod.snd =
        [Codec.uint16.write e.code] ∧
      ((object.filter fun f => f.1 == "Message").map Prod.snd = [] ∧ e.payload = .null ∨
        (object.filter fun f => f.1 == "Message").map Prod.snd = [e.payload]) := by
  have hread : record.readObject object = some e ↔ ∃ s,
      Record.readNamed object default
        (Field.of "EventType" .uint16 Envelope.code fun e v => { e with code := v }).needed =
          some s ∧
      Record.readNamed object s
        (.of "Message" .json Envelope.payload fun e v => { e with payload := v }) = some e := by
    rw [Record.readObject, record]
    simp only [List.foldlM_cons, List.foldlM_nil, Option.bind_eq_bind, Option.pure_def,
      Option.bind_eq_some_iff, Option.some.injEq, exists_eq_right]
  rw [hread]
  constructor
  · rintro ⟨s, hcode, hpayload⟩
    rcases (Record.readNamed_eq_some_iff rfl).1 hcode with ⟨-, hrequired, -⟩ | ⟨j, hj, hcode⟩
    · cases hrequired
    obtain ⟨c, hc, rfl⟩ := Option.map_eq_some_iff.1 hcode
    obtain rfl := (Codec.exact_uint16 j c).1 hc
    rcases (Record.readNamed_eq_some_iff rfl).1 hpayload with ⟨hnone, -, rfl⟩ | ⟨p, hp, hpayload⟩
    · exact ⟨hj, .inl ⟨hnone, rfl⟩⟩
    · obtain rfl := Option.some.inj hpayload
      exact ⟨hj, .inr hp⟩
  · rintro ⟨hcode, hpayload⟩
    refine ⟨⟨e.code, .null⟩, (Record.readNamed_eq_some_iff rfl).2 (.inr ⟨_, hcode, ?_⟩),
      (Record.readNamed_eq_some_iff rfl).2 ?_⟩
    · exact Option.map_eq_some_iff.2 ⟨e.code, Codec.exact_uint16.faithful e.code, rfl⟩
    · rcases hpayload with ⟨hnone, hnull⟩ | hone
      · exact .inl ⟨hnone, rfl, by rw [← hnull]⟩
      · exact .inr ⟨e.payload, hone, rfl⟩

theorem readItems_eq_some_iff {items : List Json} {e : Envelope} :
    Record.readItems record.fields items record.start = some e ↔
      (items = [Codec.uint16.write e.code] ∧ e.payload = .null) ∨
        items = [Codec.uint16.write e.code, e.payload] := by
  constructor
  · intro h
    cases items with
    | nil => cases h
    | cons j items =>
        obtain ⟨s, hcode, hrest⟩ := Option.bind_eq_some_iff.1 h
        obtain ⟨c, hc, rfl⟩ := Option.map_eq_some_iff.1 hcode
        obtain rfl := (Codec.exact_uint16 j c).1 hc
        cases items with
        | nil =>
            cases hrest
            exact .inl ⟨rfl, rfl⟩
        | cons p items =>
            cases items with
            | nil =>
                cases hrest
                exact .inr rfl
            | cons _ _ => cases hrest
  · obtain ⟨code, payload⟩ := e
    have hcode := Codec.exact_uint16.faithful code
    rintro (⟨rfl, hnull⟩ | rfl)
    · obtain rfl : payload = .null := hnull
      simp [record, Field.of, Field.needed, Record.readItems, hcode]
      rfl
    · simp [record, Field.of, Field.needed, Record.readItems, hcode, Codec.json]

/-- The known fields of a spelt envelope have values. -/
theorem exists_isField {fields : List (Option String × Written)} {e : Envelope}
    (hnames : ∀ f ∈ fields, f.1.isSome) (hcode : named "EventType" fields = [e.writtenCode])
    (hpayload : Gives e.payload (named "Message" fields)) :
    ∀ f ∈ fields.filter fun f => f.1.any record.knows, ∃ entry,
      IsField (Json.depthLimit - 1) f entry := by
  rintro ⟨name, w⟩ hf
  obtain ⟨hmem, hknown⟩ := List.mem_filter.1 hf
  obtain ⟨name, rfl⟩ := Option.isSome_iff_exists.1 (hnames _ hmem)
  have hunder : w ∈ named name fields :=
    List.mem_map.2 ⟨(some name, w), List.mem_filter.2 ⟨hmem, beq_self_eq_true _⟩, rfl⟩
  have hname : "EventType" = name ∨ "Message" = name := by
    simpa [Record.knows, record, Field.of, Field.needed, Field.isNamed] using hknown
  rcases hname with rfl | rfl
  · rw [hcode, List.mem_singleton] at hunder
    subst hunder
    exact ⟨("EventType", Codec.uint16.write e.code), rfl, e.value?_writtenCode _⟩
  · generalize named "Message" fields = ws at hpayload hunder
    cases hpayload with
    | nothing _ => exact absurd hunder List.not_mem_nil
    | one hvalue =>
        rw [List.mem_singleton] at hunder
        subst hunder
        exact ⟨("Message", e.payload), rfl, hvalue⟩

/-- Of an object, only names and values matter. -/
theorem spelt_obj_iff {e : Envelope} {fields : List (Option String × Written)} :
    e.Spelt (.obj fields) ↔ (∀ f ∈ fields, f.1.isSome) ∧
      Json.Written.values? (Json.depthLimit - 1) (named "EventType" fields) =
        some [Codec.uint16.write e.code] ∧
      ∃ js, Json.Written.values? (Json.depthLimit - 1) (named "Message" fields) = some js ∧
        (js = [] ∧ e.payload = .null ∨ js = [e.payload]) := by
  constructor
  · rintro (⟨hnames, hcode, hpayload⟩)
    rw [hcode]
    exact ⟨hnames, rfl, gives_iff.1 hpayload⟩
  · rintro ⟨hnames, hcode, hpayload⟩
    refine .object hnames ?_ (gives_iff.2 hpayload)
    obtain ⟨w, ws, hw, hws, heq⟩ :=
      List.forall₂_cons_right_iff.1 (Json.Written.values?_eq_some_iff.1 hcode)
    rw [heq, List.forall₂_nil_right_iff.1 hws, Json.Written.value?_eq_num_iff.1 hw]
    rfl

/-- **ENVELOPES** are read from the trees that spell them. -/
theorem ofWritten?_eq_some_iff {w : Written} {e : Envelope} :
    record.ofWritten? w = some e ↔ e.Spelt w := by
  cases w with
  | obj fields =>
      constructor
      · intro h
        obtain ⟨known, hknown, hread⟩ := Option.bind_eq_some_iff.1 h
        obtain ⟨hnames, hvalues⟩ := Record.knownFields?_eq_some_iff.1 hknown
        obtain ⟨hcode, hpayload⟩ := readObject_eq_some_iff.1 hread
        have hcodes := Json.Written.forall₂_named hvalues "EventType"
        have hpayloads := Json.Written.forall₂_named hvalues "Message"
        rw [Record.named_filter_knows rfl, ← Json.Written.values?_eq_some_iff] at hcodes hpayloads
        exact spelt_obj_iff.2 ⟨hnames, hcode ▸ hcodes, _, hpayloads, hpayload⟩
      · rintro (⟨hnames, hcode, hpayload⟩)
        obtain ⟨known, hvalues⟩ := exists_forall₂ (exists_isField hnames hcode hpayload)
        have hcodes := Json.Written.forall₂_named hvalues "EventType"
        have hpayloads := Json.Written.forall₂_named hvalues "Message"
        rw [Record.named_filter_knows rfl, ← Json.Written.values?_eq_some_iff] at hcodes hpayloads
        obtain ⟨js, hjs, hpayload⟩ := gives_iff.1 hpayload
        refine Option.bind_eq_some_iff.2 ⟨known,
          Record.knownFields?_eq_some_iff.2 ⟨hnames, hvalues⟩, readObject_eq_some_iff.2 ⟨?_, ?_⟩⟩
        · rw [hcode] at hcodes
          exact (Option.some.inj hcodes).symm
        · rwa [← Option.some.inj (hjs.symm.trans hpayloads)]
  | arr items =>
      have hread : record.ofWritten? (.arr items) = some e ↔ ∃ js,
          Json.Written.values? (Json.depthLimit - 1) items = some js ∧
            Record.readItems record.fields js record.start = some e := Option.bind_eq_some_iff
      simp only [hread, readItems_eq_some_iff]
      constructor
      · rintro ⟨js, hjs, hitems⟩
        have hsplit : ∃ rest, js = Codec.uint16.write e.code :: rest ∧
            (rest = [] ∧ e.payload = .null ∨ rest = [e.payload]) := by
          rcases hitems with ⟨rfl, hnull⟩ | rfl
          · exact ⟨[], rfl, .inl ⟨rfl, hnull⟩⟩
          · exact ⟨[e.payload], rfl, .inr rfl⟩
        obtain ⟨rest, rfl, hpayload⟩ := hsplit
        obtain ⟨w, ws, hw, hws, rfl⟩ :=
          List.forall₂_cons_right_iff.1 (Json.Written.values?_eq_some_iff.1 hjs)
        obtain rfl : w = e.writtenCode := Json.Written.value?_eq_num_iff.1 hw
        exact .array (gives_iff.2 ⟨rest, Json.Written.values?_eq_some_iff.2 hws, hpayload⟩)
      · rintro (_ | hpayload)
        obtain ⟨js, hjs, hpayload⟩ := gives_iff.1 hpayload
        refine ⟨Codec.uint16.write e.code :: js, Json.Written.values?_eq_some_iff.2
          (.cons (e.value?_writtenCode _) (Json.Written.values?_eq_some_iff.1 hjs)), ?_⟩
        rcases hpayload with ⟨rfl, hnull⟩ | rfl
        · exact .inl ⟨rfl, hnull⟩
        · exact .inr rfl
  | _ => exact ⟨fun h => (nomatch h), fun h => (nomatch h)⟩

/-- From a text exactly the envelope is read that the text spells. -/
theorem ofText?_eq_some_iff {text : String} {e : Envelope} :
    record.ofText? text = some e ↔ e.IsText text := by
  rw [Record.ofText?, Option.bind_eq_bind, Option.bind_eq_some_iff]
  simp only [ofWritten?_eq_some_iff]
  rfl

end Envelope

end Pitwall
