import Mathlib.Logic.Relation
import Pitwall.Proofs.Event.Envelopes
import Pitwall.Proofs.Event.Shapes

/-!
# Respelling — messages that are written in another way

A message may be written with the fields of its objects in another order, with fields that its
structures do not have, and with or without `null` where that says nothing. `Message.Respelt` is one
such change in the tree of a text. What is decoded does not show any number of them:
**`Message.decode_respelt`**.
-/

namespace Pitwall

open Json (Written)
open Json.Written (Reordered named named_append named_cons_of_eq named_cons_of_ne values?_append)

/-! ## Envelopes by their values -/

namespace Envelope

/-- Objects with the same values under both names spell the same. -/
theorem spelt_congr {e : Envelope} {fields fields' : List (Option String × Written)}
    (hnames : (∀ f ∈ fields, f.1.isSome) ↔ ∀ f ∈ fields', f.1.isSome)
    (hvalues : ∀ name ∈ ["EventType", "Message"],
      Json.Written.values? (Json.depthLimit - 1) (named name fields) =
        Json.Written.values? (Json.depthLimit - 1) (named name fields')) :
    e.Spelt (.obj fields) ↔ e.Spelt (.obj fields') := by
  rw [spelt_obj_iff, spelt_obj_iff, hnames, hvalues "EventType" (by simp),
    hvalues "Message" (by simp)]

/-- A field with a name does not make the names of an object unreadable. -/
theorem readable_insert (before behind : List (Option String × Written)) (name : String)
    (w : Written) : (∀ f ∈ before ++ (some name, w) :: behind, f.1.isSome) ↔
      ∀ f ∈ before ++ behind, f.1.isSome := by
  simp only [List.forall_mem_append, List.forall_mem_cons, Option.isSome_some, true_and]

/-- What stands in a list may be replaced by what has the same value. -/
theorem values?_replace {depth : Nat} {w w' : Written} (h : w.value? depth = w'.value? depth)
    (before behind : List Written) :
    Json.Written.values? depth (before ++ w :: behind) =
      Json.Written.values? depth (before ++ w' :: behind) := by
  rw [values?_append, values?_append, Json.Written.values?, Json.Written.values?, h]

/-- The order of fields does not show in an envelope. -/
theorem spelt_reordered {e : Envelope} {w w' : Written} (h : Reordered w w') :
    e.Spelt w ↔ e.Spelt w' := by
  cases h with
  | @order fields fields' hp hd =>
      refine spelt_congr ?_ fun name _ => by rw [Json.Written.named_perm hp hd]
      exact ⟨fun h f hf => h f (hp.mem_iff.2 hf), fun h f hf => h f (hp.mem_iff.1 hf)⟩
  | @item w w' before behind h =>
      rw [← ofWritten?_eq_some_iff, ← ofWritten?_eq_some_iff, Record.ofWritten?,
        values?_replace (Json.Written.value?_reordered h _)]
      rfl
  | @field w w' before behind key h =>
      refine spelt_congr (by simp only [List.forall_mem_append, List.forall_mem_cons])
        fun name _ => ?_
      rw [named_append, named_append]
      by_cases hkey : key = some name
      · rw [hkey, named_cons_of_eq, named_cons_of_eq,
          values?_replace (Json.Written.value?_reordered h _)]
      · rw [named_cons_of_ne hkey, named_cons_of_ne hkey]

/-- A payload that stands among others is the only one. -/
theorem Gives.of_append_cons {payload : Json} {before behind : List Written} {w : Written}
    (h : Gives payload (before ++ w :: behind)) :
    before = [] ∧ behind = [] ∧ w.value? (Json.depthLimit - 1) = some payload := by
  generalize hws : before ++ w :: behind = ws at h
  cases h with
  | nothing _ => simp at hws
  | one hvalue =>
      rw [List.append_eq_singleton_iff] at hws
      rcases hws with ⟨rfl, hws⟩ | ⟨-, hws⟩
      · obtain ⟨rfl, rfl⟩ := List.cons.inj hws
        exact ⟨rfl, rfl, hvalue⟩
      · cases hws

end Envelope

/-! ## Respelling -/

namespace Message

/-- One change in the tree of a message that may not show. -/
inductive Respelt : Written → Written → Prop
  /-- The fields of some object are put in another order. -/
  | order {w w' : Written} : Reordered w w' → Respelt w w'
  /-- The envelope gets a field that it does not have. -/
  | unknown (before behind : List (Option String × Written)) {name : String} (w : Written) :
    name ≠ "EventType" → name ≠ "Message" →
    Respelt (.obj (before ++ behind)) (.obj (before ++ (some name, w) :: behind))
  /-- A missing payload is written as `null`. -/
  | null (before behind : List (Option String × Written)) :
    (∀ f ∈ before ++ behind, f.1 ≠ some "Message") →
    Respelt (.obj (before ++ behind)) (.obj (before ++ (some "Message", .null) :: behind))
  /-- The payload is changed as the kind of the message allows. -/
  | payload (before behind : List (Option String × Written)) {tag : Tag} {w w' : Written} :
    (some "EventType", .num (some (.int tag.code.toNat))) ∈ before ++ behind →
    Edited tag.shape (Json.depthLimit - 1) w w' →
    Respelt (.obj (before ++ (some "Message", w) :: behind))
      (.obj (before ++ (some "Message", w') :: behind))

/-- The tree spells a message. -/
def Says (w : Written) (m : Message) : Prop := ∃ e : Envelope, e.Spelt w ∧ ofEnvelope? e = some m

/-- Where the kind of a message cannot tell two payloads apart, the message cannot. -/
theorem Says.payload {before behind : List (Option String × Written)} {tag : Tag} {w w' : Written}
    {m : Message} (htag : (some "EventType", .num (some (.int tag.code.toNat))) ∈ before ++ behind)
    (halike : Alike (fun payload => ofPayload? payload tag) (w.value? (Json.depthLimit - 1))
      (w'.value? (Json.depthLimit - 1)))
    (h : Says (.obj (before ++ (some "Message", w) :: behind)) m) :
    Says (.obj (before ++ (some "Message", w') :: behind)) m := by
  obtain ⟨e, ⟨hnames, hcode, hgives⟩, hm⟩ := h
  -- the only code is that of the kind
  have hkind : tag.code = e.code := by
    have hin : Written.num (some (.int tag.code.toNat)) ∈
        named "EventType" (before ++ (some "Message", w) :: behind) := by
      refine List.mem_map.2 ⟨(some "EventType", _), List.mem_filter.2
        ⟨?_, beq_self_eq_true (some "EventType")⟩, rfl⟩
      rcases List.mem_append.1 htag with h | h
      · exact List.mem_append_left _ h
      · exact List.mem_append_right _ (List.mem_cons_of_mem _ h)
    rw [hcode, List.mem_singleton, Envelope.writtenCode] at hin
    have hint : (tag.code.toNat : Int) = e.code.toNat := by simpa using hin
    exact UInt16.toNat_inj.1 (Int.ofNat_inj.1 hint)
  -- the only payload is the one that is changed
  rw [named_append, named_cons_of_eq] at hgives
  obtain ⟨hbefore, hbehind, hvalue⟩ := hgives.of_append_cons
  rw [hvalue] at halike
  generalize hvalue' : w'.value? (Json.depthLimit - 1) = o' at halike
  cases halike with
  | @some _ payload' hread _ =>
      refine ⟨⟨e.code, payload'⟩, .object ?_ ?_ ?_, ?_⟩
      · simpa only [List.forall_mem_append, List.forall_mem_cons] using hnames
      · rw [named_append, named_cons_of_ne (by simp)] at hcode ⊢
        exact hcode
      · rw [named_append, named_cons_of_eq, hbefore, hbehind]
        exact .one hvalue'
      · rw [ofEnvelope?, ← hkind, Tag.ofCode?_code, Option.bind_some] at hm ⊢
        exact hread.symm.trans hm

theorem says_respelt {w w' : Written} (h : Respelt w w') (m : Message) :
    Says w m ↔ Says w' m := by
  cases h with
  | order h => simp only [Says, Envelope.spelt_reordered h]
  | @unknown before behind name w htype hmessage =>
      have hspelt (e : Envelope) : e.Spelt (.obj (before ++ behind)) ↔
          e.Spelt (.obj (before ++ (some name, w) :: behind)) := by
        refine Envelope.spelt_congr (Envelope.readable_insert before behind name w).symm
          fun known hknown => ?_
        have hne : some name ≠ some known := by
          rcases List.mem_pair.1 hknown with rfl | rfl
          · simpa using htype
          · simpa using hmessage
        rw [named_append, named_append, named_cons_of_ne hne]
      simp only [Says, hspelt]
  | null before behind hmissing =>
      have hspelt (e : Envelope) : e.Spelt (.obj (before ++ behind)) ↔
          e.Spelt (.obj (before ++ (some "Message", .null) :: behind)) := by
        have hnone : named "Message" (before ++ behind) = [] := by
          rw [named, List.map_eq_nil_iff, List.filter_eq_nil_iff]
          intro f hf
          simpa using hmissing f hf
        have hone : named "Message" (before ++ (some "Message", .null) :: behind) = [.null] := by
          rw [named_append, List.append_eq_nil_iff] at hnone
          rw [named_append, named_cons_of_eq, hnone.1, hnone.2, List.nil_append]
        have hcode : named "EventType" (before ++ (some "Message", .null) :: behind) =
            named "EventType" (before ++ behind) := by
          rw [named_append, named_append, named_cons_of_ne (by simp)]
        rw [Envelope.spelt_obj_iff, Envelope.spelt_obj_iff, Envelope.readable_insert, hcode, hnone,
          hone]
        -- nothing counts as null, and null is null
        refine and_congr_right fun _ => and_congr_right fun _ => ?_
        constructor
        · rintro ⟨_, hjs, ⟨-, hnull⟩ | rfl⟩
          · exact ⟨[.null], rfl, .inr (by rw [hnull])⟩
          · cases hjs
        · rintro ⟨_, hjs, ⟨rfl, -⟩ | rfl⟩
          · cases hjs
          · exact ⟨[], rfl, .inl ⟨rfl, (List.cons.inj (Option.some.inj hjs)).1.symm⟩⟩
      simp only [Says, hspelt]
  | payload before behind htag hedit =>
      have halike := tolerates_ofPayload? _ _ _ _ hedit
      exact ⟨Says.payload htag halike, Says.payload htag halike.symm⟩

/-- No number of changes shows. -/
theorem says_eqvGen {w w' : Written} (h : Relation.EqvGen Respelt w w') (m : Message) :
    Says w m ↔ Says w' m := by
  induction h with
  | rel w w' h => exact says_respelt h m
  | refl w => exact Iff.rfl
  | symm w w' _ ih => exact ih.symm
  | trans u v w _ _ huv hvw => exact huv.trans hvw

/-- A text is decoded to what its tree says. -/
theorem decode?_eq_some_iff_of_read {text : String} {w : Written}
    (hw : Written.read? text.toList = some w) {m : Message} :
    decode? text = some m ↔ Says w m := by
  rw [decode?, Record.ofText?, hw, Option.bind_eq_bind, Option.bind_eq_bind, Option.bind_some,
    Option.bind_eq_some_iff]
  simp only [Envelope.ofWritten?_eq_some_iff]
  rfl

/-- **SPELLING DOES NOT SHOW**: two texts are decoded to the same message if their trees differ by
any number of changes, this way or that: the fields of any object in another order, as long as none
is repeated; a field that a structure does not have, with any value; and `null` for a missing field
that may be `null`. This holds at any depth of the payload, and of the envelope as well. -/
theorem decode_respelt {text text' : String} {w w' : Written}
    (hw : Written.read? text.toList = some w) (hw' : Written.read? text'.toList = some w')
    (h : Relation.EqvGen Respelt w w') : decode? text = decode? text' := by
  refine Option.ext fun m => ?_
  rw [decode?_eq_some_iff_of_read hw, decode?_eq_some_iff_of_read hw', says_eqvGen h m]

/-- A snapshot of one connected driver, in few words. -/
def terse : String :=
  "\x7b\"EventType\":200,\"Message\":\x7b\"ConnectedDrivers\":\x7b\"Drivers\":" ++
    "\x7b\"g\":\x7b\"CarInfo\":\x7b\"CarModel\":\"m3\"\x7d\x7d\x7d\x7d\x7d\x7d"

/-- The same snapshot from a server with a new field that writes out what is missing. -/
def verbose : String :=
  "\x7b\"Message\":\x7b\"CarIDToGUID\":null,\"ConnectedDrivers\":\x7b\"Drivers\":" ++
    "\x7b\"g\":\x7b\"CarInfo\":\x7b\"Doors\":[2],\"CarModel\":\"m3\"\x7d\x7d\x7d\x7d\x7d," ++
    "\"EventType\":200\x7d"

/-- The connected driver, with what is said of the car before its model. -/
def driverTree (more : List (Option String × Written)) : Option String × Written :=
  (some "ConnectedDrivers", .obj [(some "Drivers", .obj [(some "g",
    .obj [(some "CarInfo", .obj (more ++ [(some "CarModel", .str (some "m3"))]))])])])

set_option maxRecDepth 2000 in
/-- In both ways the snapshot is decoded to the same message. -/
theorem decode_respelt_of_snapshot : decode? terse = decode? verbose := by
  let code : Option String × Written := (some "EventType", .num (some (.int 200)))
  let doors : Option String × Written := (some "Doors", .arr [.num (some (.int 2))])
  let cars : Option String × Written := (some "CarIDToGUID", .null)
  have hdoors : Edited Snapshot.shape 126 (.obj [driverTree []]) (.obj [driverTree [doors]]) := by
    refine .field [] [] (by decide) (.field [] [] (by decide) (.value [] [] (.field [] [] ?_ ?_)))
    · decide
    · exact .unknown [] [(some "CarModel", .str (some "m3"))] (by decide) (by decide)
  have hcars : Edited Snapshot.shape 126 (.obj [driverTree [doors]])
      (.obj [cars, driverTree [doors]]) :=
    .null [] [driverTree [doors]] (by decide) (by simp [driverTree])
  have hchange {w w' : Written} (h : Edited Snapshot.shape 126 w w') :
      Respelt (.obj [code, (some "Message", w)]) (.obj [code, (some "Message", w')]) :=
    have hcode : (some "EventType", .num (some (.int Tag.raceControl.code.toNat))) ∈ [code] ++ [] :=
      List.mem_singleton_self code
    .payload [code] [] hcode h
  have hterse : Written.read? terse.toList =
      some (.obj [code, (some "Message", .obj [driverTree []])]) := rfl
  have hverbose : Written.read? verbose.toList =
      some (.obj [(some "Message", .obj [cars, driverTree [doors]]), code]) := rfl
  refine decode_respelt hterse hverbose (.trans _ _ _ (.rel _ _ (hchange hdoors)) ?_)
  refine .trans _ _ _ (.rel _ _ (hchange hcars)) (.rel _ _ (.order (.order (.swap _ _ _) ?_)))
  simp [code]

end Message

end Pitwall
