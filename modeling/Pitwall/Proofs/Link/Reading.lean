import Pitwall.Link.Client
import Pitwall.Proofs.Engine.Run

/-!
# Reading — what a client makes of its sources

A client that is left alone by its periodic jobs is told by the frames that it has read
(**`Client.heard`**): the engine has run the events among them, what was announced is published, and
the recorder has got them one by one, also those that are no messages or change the version.
Of a source it reads what stands up to the first change of version (**`Recording.upToChange`**), and
whether there was one decides if it goes on to the next source:
**`Client.readSources_atOnce`**.
-/

namespace Pitwall

namespace Recording

/-- The frames up to the first change of version, and that one. -/
def upToChange (frames : List Frame) : List Frame :=
  frames.takeWhile (fun f => !f.changesVersion) ++
    (frames.dropWhile (fun f => !f.changesVersion)).take 1

/-- Whether the version changes in the frames. -/
def changes (frames : List Frame) : Bool := frames.any Frame.changesVersion

/-- The events among the frames, each at the time it came in. -/
def inputs (frames : List Frame) : List Input :=
  frames.filterMap fun f =>
    match Message.decode? f.payload with
    | some (.event e) => some (.event e f.receivedAt)
    | _ => none

/-- What a recorder gets of frames: all of them if it stays, else as many as it takes. -/
def taken (patience : Option Nat) (frames : List Frame) : List Frame :=
  patience.elim frames (frames.take ·)

theorem upToChange_cons (f : Frame) (fs : List Frame) :
    upToChange (f :: fs) = if f.changesVersion then [f] else f :: upToChange fs := by
  cases h : f.changesVersion <;> simp [upToChange, h]

theorem changes_cons (f : Frame) (fs : List Frame) :
    changes (f :: fs) = (f.changesVersion || changes fs) := rfl

/-- Without a change of version there is nothing to leave out. -/
theorem upToChange_eq_self {fs : List Frame} (h : changes fs = false) : upToChange fs = fs := by
  induction fs with
  | nil => rfl
  | cons f fs ih =>
      rw [changes_cons, Bool.or_eq_false_iff] at h
      rw [upToChange_cons, if_neg (by simp [h.1]), ih h.2]

theorem inputs_append (fs gs : List Frame) : inputs (fs ++ gs) = inputs fs ++ inputs gs :=
  List.filterMap_append

/-- A recorder that has got some frames takes so many fewer of the next ones. -/
theorem taken_append (patience : Option Nat) (fs gs : List Frame) :
    taken patience (fs ++ gs) =
      taken patience fs ++ taken (patience.map (· - fs.length)) gs := by
  cases patience with
  | none => rfl
  | some n => exact List.take_append

end Recording

namespace Client

open Recording

/-- What becomes of the client with frames, if it reads all of them. -/
def heard (c : Client) (frames : List Frame) : Client where
  engine := c.engine.run (inputs frames)
  published := c.published ++ (c.engine.announcements (inputs frames)).flatten
  recorded := c.recorded ++ taken c.patience frames
  patience := c.patience.map (· - frames.length)

theorem heard_nil (c : Client) : c.heard [] = c := by
  obtain ⟨engine, published, recorded, patience⟩ := c
  cases patience <;> simp [heard, inputs, taken, Engine.run, Engine.announcements]

theorem heard_append (c : Client) (fs gs : List Frame) :
    c.heard (fs ++ gs) = (c.heard fs).heard gs := by
  simp only [heard, inputs_append, taken_append, Engine.run_append, Engine.announcements_append,
    List.flatten_append, List.append_assoc, List.length_append, Option.map_map]
  congr 2
  funext n
  exact Nat.sub_add_eq n fs.length gs.length

/-- The recorder gets one frame, if it is still there. -/
theorem record_eq (c : Client) (f : Frame) : c.record f =
    { c with
      recorded := c.recorded ++ taken c.patience [f]
      patience := c.patience.map (· - 1) } := by
  obtain ⟨engine, published, recorded, patience⟩ := c
  rcases patience with _ | n
  · rfl
  · cases n with
    | zero => simp [record, taken]
    | succ n => simp [record, taken]

/-- Taking a frame in is hearing it, whatever it is; a change of version is told besides. -/
theorem take_eq (c : Client) (f : Frame) : c.take f = (c.heard [f], f.changesVersion) := by
  rw [take, record_eq, Frame.changesVersion]
  cases hm : Message.decode? f.payload with
  | none => simp [heard, inputs, hm, Engine.run, Engine.announcements]
  | some m =>
      cases m with
      | versionChanged v => simp [heard, inputs, hm, Engine.run, Engine.announcements]
      | event e => simp [heard, inputs, hm, Engine.run, Engine.announcements, Engine.react]

/-- **ONE SOURCE** is read up to its first change of version, and to its end if there is none. -/
theorem readSource_atOnce (c : Client) (fs : List Frame) :
    c.readSource (Pacing.atOnce fs) = (c.heard (upToChange fs), changes fs) := by
  induction fs generalizing c with
  | nil => exact Prod.ext c.heard_nil.symm rfl
  | cons f fs ih =>
      have hmeet : c.meet (.frame 0 f) = (c.heard [f], f.changesVersion) := c.take_eq f
      show readSource c (.frame 0 f :: Pacing.atOnce fs) = _
      rw [readSource, hmeet, upToChange_cons, changes_cons]
      cases hf : f.changesVersion with
      | true => rfl
      | false =>
          show (c.heard [f]).readSource (Pacing.atOnce fs) = _
          rw [ih, ← heard_append]
          rfl

/-- A client goes on to the next source exactly if the version has changed, and starts over
there. -/
theorem readSources_cons (c : Client) (source : List Frame) (sources : List (List Frame)) :
    c.readSources ((source :: sources).map Pacing.atOnce) =
      if changes source then
        { c.heard (upToChange source) with engine := .initial }.readSources
          (sources.map Pacing.atOnce)
      else c.heard source := by
  rw [List.map_cons, readSources, readSource_atOnce]
  cases h : changes source with
  | true => rfl
  | false => rw [upToChange_eq_self h]; rfl

/-- **ALL SOURCES**: where the last source has no change of version, a client reads sources up to
and including the first without one. Each before that it reads up to its first change of version;
the engine knows the events of the last one that is read, what all events announced is published,
and the recorder has got all frames that were read, or as many as it takes. -/
theorem readSources_atOnce (patience : Option Nat) {sources : List (List Frame)}
    (hlast : ∃ last ∈ sources.getLast?, changes last = false) :
    ∃ before last unread, sources = before ++ last :: unread ∧
      (∀ source ∈ before, changes source = true) ∧ changes last = false ∧
      let c := readSources { patience } (sources.map Pacing.atOnce)
      let read := before.map upToChange ++ [last]
      c.engine = Engine.initial.run (inputs last) ∧
      c.published =
        read.flatMap (fun frames => (Engine.initial.announcements (inputs frames)).flatten) ∧
      c.recorded = taken patience read.flatten := by
  suffices h : ∀ c : Client, c.engine = .initial → ∃ before last unread,
      sources = before ++ last :: unread ∧
      (∀ source ∈ before, changes source = true) ∧ changes last = false ∧
      let c' := c.readSources (sources.map Pacing.atOnce)
      let read := before.map upToChange ++ [last]
      c'.engine = Engine.initial.run (inputs last) ∧
      c'.published = c.published ++
        read.flatMap (fun frames => (Engine.initial.announcements (inputs frames)).flatten) ∧
      c'.recorded = c.recorded ++ taken c.patience read.flatten by
    simpa using h { patience } rfl
  induction sources with
  | nil => exact absurd hlast (by simp)
  | cons source sources ih =>
      intro c hc
      cases h : changes source with
      | false =>
          refine ⟨[], source, sources, rfl, List.forall_mem_nil _, h, ?_⟩
          rw [readSources_cons, if_neg (by simp [h]), heard, hc]
          simp
      | true =>
          -- a source behind this one is the last, so the client gets there with a new engine
          have hrest : ∃ last ∈ sources.getLast?, changes last = false := by
            obtain ⟨last, hmem, hno⟩ := hlast
            cases sources with
            | nil =>
                cases hmem
                have hno' : changes source = false := hno
                rw [h] at hno'
                cases hno'
            | cons s rest => exact ⟨last, by simpa using hmem, hno⟩
          obtain ⟨before, last, unread, hsplit, hbefore, hlast', hengine, hpublished, hrecorded⟩ :=
            ih hrest { c.heard (upToChange source) with engine := .initial } rfl
          refine ⟨source :: before, last, unread, by rw [hsplit]; rfl,
            List.forall_mem_cons.2 ⟨h, hbefore⟩, hlast', ?_⟩
          rw [readSources_cons, if_pos h]
          refine ⟨hengine, hpublished.trans ?_, hrecorded.trans ?_⟩
          · simp [heard, hc]
          · simp [heard, taken_append]

/-- Ann connects before a change of version, and Bob behind it to a source that goes on with a chat
message. The recorder takes four frames, so the last one is not recorded, nor is the one that the
change of version cuts off. -/
theorem reads_over_a_change :
    let frame (payload : String) : Frame := ⟨.zero, payload⟩
    let ann := frame "[51,[1,\"Ann\",\"a\",\"m3\"]]"
    let bob := frame "[51,[2,\"Bob\",\"b\",\"m3\"]]"
    let hello := frame "[57,[2,\"b\",\"Bob\"]]"
    let sources := [[ann, frame "[56,4]", hello], [bob, frame "no message", hello]]
    (∃ last ∈ sources.getLast?, changes last = false) ∧
      (∃ before last unread, sources = before ++ last :: unread ∧
        (∀ source ∈ before, changes source = true) ∧ changes last = false ∧
        let c := readSources { patience := some 4 } (sources.map Pacing.atOnce)
        let read := before.map upToChange ++ [last]
        c.engine = Engine.initial.run (inputs last) ∧
        c.published =
          read.flatMap (fun frames => (Engine.initial.announcements (inputs frames)).flatten) ∧
        c.recorded = taken (some 4) read.flatten) ∧
      let c := readSources { patience := some 4 } (sources.map Pacing.atOnce)
      c.engine.board.connected.keys = [⟨"b"⟩] ∧
        c.published = [.driverConnected ⟨"a"⟩, .driverConnected ⟨"b"⟩, .chatReceived] ∧
        c.recorded = [ann, frame "[56,4]", bob, frame "no message"] := by
  intro frame ann bob hello sources
  have hlast : ∃ last ∈ sources.getLast?, changes last = false :=
    ⟨[bob, frame "no message", hello], rfl, by decide +kernel⟩
  exact ⟨hlast, readSources_atOnce (some 4) hlast, by decide +kernel, by decide +kernel,
    by decide +kernel⟩

end Client

end Pitwall
