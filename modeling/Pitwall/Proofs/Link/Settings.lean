import Pitwall.Link.Settings
import Pitwall.Proofs.Json.Objects
import Pitwall.Proofs.Wire.Exact
import Pitwall.Proofs.Wire.Known

/-!
# Settings read back — whole or in part

What is saved is read back (**`Settings.load_save`**). A file may also hold some of the settings
only, in any order and with others that are not known: what is missing has its default, and the rest
is what was saved (**`Settings.load_of_altered`**). **`Settings.saved_and_altered`** says both, and
that jobs have a period whatever is loaded.
-/

namespace Pitwall

open Json (Written)

/-- A value without parts is its own. -/
theorem Json.IsAtom.settled {j : Json} (h : j.IsAtom) : j.Settled := by
  cases h <;> rfl

/-- A field is set to what was written for it if that was kept. -/
theorem Field.read_kept {α σ : Type} {c : Codec α} (hc : c.Faithful) {name : String} {get : σ → α}
    {set : σ → α → σ} (hset : ∀ t, set t (get t) = t) (kept : Bool) (s t : σ) :
    (if kept then (Field.of name c get set).read ((Field.of name c get set).write s) t
      else some t) = some (set t (if kept then get s else get t)) := by
  cases kept with
  | true => exact Field.read_write_of hc name get set s t
  | false => exact congrArg some (hset t).symm

namespace Settings

/-- The settings as far as their names are kept; the others have their defaults. -/
def keeping (s : Settings) (keep : String → Bool) : Settings :=
  let under {α : Type} (name : String) (get : Settings → α) : α :=
    if keep name then get s else get default
  { serverAddress := under "server_url" (·.serverAddress)
    useMph := under "use_mph" (·.useMph)
    progressMillis := under "progress_interval_ms" (·.progressMillis)
    standingsMillis := under "standings_interval_ms" (·.standingsMillis)
    feedsMillis := under "feeds_interval_ms" (·.feedsMillis)
    leastDelayMillis := under "min_reconnect_delay_ms" (·.leastDelayMillis)
    greatestDelayMillis := under "max_reconnect_delay_ms" (·.greatestDelayMillis) }

theorem keeping_all (s : Settings) : s.keeping (fun _ => true) = s := rfl

/-! ## The record -/

theorem namesApart : record.NamesApart := by decide

/-- A setting is written as a text, a truth value or a whole number. -/
theorem isAtom_write (s : Settings) {f : Field Settings} (hf : f ∈ record.fields) :
    (f.write s).IsAtom := by
  revert f
  simp only [record, List.forall_mem_cons]
  exact ⟨.str _, .bool _, .num _, .num _, .num _, .num _, .num _, List.forall_mem_nil _⟩

/-- Numbers of 64 bits can be told from their texts. -/
theorem legible_uint64 (n : UInt64) : (Codec.uint64.write n).Legible :=
  .num (Json.Number.legible_int (by omega) (Int.ofNat_lt.2 n.toNat_lt))

theorem legible_write (s : Settings) {f : Field Settings} (hf : f ∈ record.fields) :
    (f.write s).Legible := by
  revert f
  simp only [record, List.forall_mem_cons]
  exact ⟨.str _, .bool _, legible_uint64 _, legible_uint64 _, legible_uint64 _, legible_uint64 _,
    legible_uint64 _, List.forall_mem_nil _⟩

theorem required_eq_false {f : Field Settings} (hf : f ∈ record.fields) : f.required = false := by
  revert f
  simp [record, Field.of]

/-- Settings are read as they were, as far as they are kept. -/
theorem foldlM_kept (s : Settings) (keep : String → Bool) :
    record.fields.foldlM (fun t f => if keep f.name then f.read (f.write s) t else some t)
      record.start = some (s.keeping keep) := by
  simp only [record, List.foldlM_cons, List.foldlM_nil,
    Field.read_kept Codec.exact_string.faithful, Field.read_kept Codec.exact_bool.faithful,
    Field.read_kept Codec.exact_uint64.faithful, implies_true, Option.bind_eq_bind,
    Option.bind_some]
  rfl

/-! ## Files -/

/-- **A FILE WITH SOME OF THE SETTINGS**, in whatever order and among whatever others, is read as
what it has of them. -/
theorem load_of_altered {s : Settings} {keep : String → Bool}
    {fields : List (Option String × Written)} (h : record.Altered s keep fields) {text : String}
    (htext : Written.read? text.toList = some (.obj fields)) :
    load text = .ok (s.keeping keep) := by
  have hread : record.ofText? text = some (s.keeping keep) := by
    rw [Record.ofText?, htext, Option.bind_eq_bind, Option.bind_some,
      Record.ofWritten?_altered namesApart (fun _ => required_eq_false)
        (fun _ hf => (s.isAtom_write hf).settled) h]
    exact s.foldlM_kept keep
  rw [load, hread]

/-- The tree of the file that is saved. -/
theorem read?_save (s : Settings) :
    Written.read? s.save.toList = some (.obj (Written.ofFields (record.written s))) := by
  rw [save, Json.pretty, String.toList_ofList]
  refine Written.read?_prettyChars_obj fun e he => ?_
  obtain ⟨f, hf, rfl⟩ := List.mem_map.1 he
  exact Written.read?_prettyChars_atom (s.legible_write hf) (s.isAtom_write hf) _

/-- **SAVED SETTINGS** are read back. -/
theorem load_save (s : Settings) : load s.save = .ok s := by
  have hwhole : record.Altered s (fun _ => true) (Written.ofFields (record.written s)) := by
    refine ⟨[], List.forall_mem_nil _, ?_⟩
    rw [List.filter_true, List.append_nil]
  have hload := load_of_altered hwhole s.read?_save
  rwa [keeping_all] at hload

/-- Jobs do not run all the time. -/
theorem periodNanos_pos (s : Settings) (tick : Tick) : 0 < s.periodNanos tick := by
  have hperiod : s.period tick ≠ 0 := by
    rw [period]
    split
    · decide
    · assumption
  have hpos : 0 < (s.period tick).toNat :=
    Nat.pos_of_ne_zero fun h => hperiod (UInt64.toNat_inj.1 h)
  exact Nat.mul_pos hpos (by decide)

/-- **SETTINGS ROUND-TRIP.** What is saved is read back. From the same object without some of its
names, with others that are not known and in any order, the settings under the names that are kept
are read and the others have their defaults; and such an object may be put together from any texts
of names and values. Whatever is read, jobs have a period. -/
theorem saved_and_altered (s : Settings) :
    load s.save = .ok s ∧
    (∀ keep fields, record.Altered s keep fields →
      (∀ text, Written.read? text.toList = some (.obj fields) →
        load text = .ok (s.keeping keep)) ∧
      ∀ entries, List.Forall₂ Written.IsEntry entries fields →
        load (String.ofList (Written.objectText entries)) = .ok (s.keeping keep)) ∧
    ∀ text t, load text = .ok t → ∀ tick, 0 < t.periodNanos tick := by
  refine ⟨s.load_save, fun keep fields haltered => ⟨fun text htext => ?_, fun entries h => ?_⟩,
    fun _ t _ tick => t.periodNanos_pos tick⟩
  · exact load_of_altered haltered htext
  · refine load_of_altered haltered ?_
    rw [String.toList_ofList]
    exact Written.read?_objectText h

/-- An address that needs escapes and a period that takes all 64 bits, behind a field that is not
known and has no value; the choice of units is left out. -/
theorem saved_and_altered_theme :
    let s : Settings :=
      { (default : Settings) with
        serverAddress := "ws://\"box\"\\\n"
        useMph := true
        progressMillis := 18446744073709551615 }
    load s.save = .ok s ∧
      load ("\x7b\"theme\": [1e999, \x7b\x7d],\"progress_interval_ms\": 18446744073709551615 ," ++
          "\"server_url\":\"ws://\\\"box\\\"\\\\\\n\"\x7d") = .ok { s with useMph := false } ∧
      0 < s.periodNanos .progress := by
  intro s
  obtain ⟨hsaved, haltered, hperiod⟩ := saved_and_altered s
  refine ⟨hsaved, ?_, hperiod _ s hsaved .progress⟩
  let keep (name : String) : Bool := name == "server_url" || name == "progress_interval_ms"
  let theme : Option String × Written := (some "theme", .arr [.num none, .obj []])
  let kept : List (Option String × Written) :=
    [(some "server_url", .str (some s.serverAddress)),
      (some "progress_interval_ms", .num (some (.int 18446744073709551615)))]
  have hfields : record.Altered s keep (theme :: kept.reverse) := by
    refine ⟨[theme], ?_, ?_⟩
    · rintro f hf
      obtain rfl := List.mem_singleton.1 hf
      exact ⟨"theme", rfl, by decide +kernel⟩
    · have hkept : Written.ofFields ((record.written s).filter fun e => keep e.1) = kept := rfl
      rw [hkept]
      exact List.reverse_perm (kept ++ [theme])
  have hlimit : Written.read? " 18446744073709551615 ".toList =
      some (.num (some (.int 18446744073709551615))) := by
    have hspace : ∀ c ∈ [' '], Json.Token.isBlank c = true := by simp [Json.Token.isBlank]
    exact Written.read?_blanks hspace hspace
      (Written.read?_chars (legible_uint64 18446744073709551615))
  have hload := (haltered keep _ hfields).2
    [("\"theme\"".toList, " [1e999, \x7b\x7d]".toList),
      ("\"progress_interval_ms\"".toList, " 18446744073709551615 ".toList),
      ("\"server_url\"".toList, "\"ws://\\\"box\\\"\\\\\\n\"".toList)]
    (.cons ⟨rfl, rfl⟩ (.cons ⟨rfl, hlimit⟩ (.cons ⟨rfl, rfl⟩ .nil)))
  have hleft : s.keeping keep = { s with useMph := false } := by decide +kernel
  rw [hleft] at hload
  refine Eq.trans (congrArg load ?_) hload
  decide +kernel

end Settings

end Pitwall
