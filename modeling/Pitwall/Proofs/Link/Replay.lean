import Pitwall.Proofs.Link.Reading
import Pitwall.Proofs.Link.Recording

/-!
# Replay — a recorded session again

What a client reads of its sources, **`Recording.readFrom`**, is what it records. Cutting that where
the version changes gives back the parts that were read, one run for each
(**`Recording.runs_upToChange`**), so a client that reads the runs goes the same way, restart by
restart: **`Client.readSources_runs`**. The file in between changes nothing:
**`Client.replay_recording`**.
-/

namespace Pitwall

namespace Recording

/-- The frames that are read of sources: each source up to its first change of version, and none
behind a source without one. -/
def readFrom : List (List Frame) → List Frame
  | [] => []
  | source :: sources => upToChange source ++ if changes source then readFrom sources else []

/-! ## What has been read up to a change -/

theorem changes_upToChange (fs : List Frame) : changes (upToChange fs) = changes fs := by
  induction fs with
  | nil => rfl
  | cons f fs ih =>
      rw [upToChange_cons, changes_cons]
      cases hf : f.changesVersion with
      | true => simp [changes, hf]
      | false => simp [changes_cons, hf, ih]

theorem upToChange_upToChange (fs : List Frame) : upToChange (upToChange fs) = upToChange fs := by
  induction fs with
  | nil => rfl
  | cons f fs ih =>
      rw [upToChange_cons]
      cases hf : f.changesVersion with
      | true => simp [upToChange_cons, hf]
      | false => simp [upToChange_cons, hf, ih]

/-! ## Runs -/

theorem runsFrom_upToChange {fs : List Frame} (h : changes fs = true) (run rest : List Frame) :
    runsFrom run (upToChange fs ++ rest) = (run.reverse ++ upToChange fs) :: runs rest := by
  induction fs generalizing run with
  | nil => cases h
  | cons f fs ih =>
      rw [upToChange_cons]
      cases hf : f.changesVersion with
      | true => simp [runsFrom, hf, runs]
      | false =>
          rw [changes_cons, hf, Bool.false_or] at h
          simp [runsFrom, hf, ih h]

/-- **A CHANGE OF VERSION** ends a run. -/
theorem runs_upToChange {fs : List Frame} (h : changes fs = true) (rest : List Frame) :
    runs (upToChange fs ++ rest) = upToChange fs :: runs rest :=
  runsFrom_upToChange h [] rest

/-- Frames without a change of version are one run, if there are any. -/
theorem runsFrom_of_not_changes {fs : List Frame} (h : changes fs = false) (run : List Frame) :
    runsFrom run fs = if run.reverse ++ fs = [] then [] else [run.reverse ++ fs] := by
  induction fs generalizing run with
  | nil => simp [runsFrom]
  | cons f fs ih =>
      rw [changes_cons, Bool.or_eq_false_iff] at h
      simp [runsFrom, h.1, ih h.2]

end Recording

namespace Client

open Recording

/-- A client records what it reads. -/
theorem recorded_readSources {c : Client} (hc : c.patience = none) (sources : List (List Frame)) :
    (c.readSources (sources.map Pacing.atOnce)).recorded = c.recorded ++ readFrom sources := by
  induction sources generalizing c with
  | nil => simp [readSources, readFrom]
  | cons source sources ih =>
      rw [readSources_cons, readFrom]
      cases h : changes source with
      | true =>
          have hheard : (c.heard (upToChange source)).patience = none := by simp [heard, hc]
          rw [if_pos rfl, ih (c := { c.heard (upToChange source) with engine := .initial }) hheard]
          simp [heard, taken, hc]
      | false => simp [heard, taken, hc, upToChange_eq_self h]

/-- **RUN BY RUN** a client comes to where it comes source by source. -/
theorem readSources_runs (c : Client) (sources : List (List Frame)) :
    c.readSources ((runs (readFrom sources) ++ [[]]).map Pacing.atOnce) =
      c.readSources (sources.map Pacing.atOnce) := by
  induction sources generalizing c with
  | nil => exact (readSources_cons c [] []).trans c.heard_nil
  | cons source sources ih =>
      rw [readFrom, readSources_cons]
      cases h : changes source with
      | true =>
          -- the part that was read is a run, and the runs behind it are read after the restart
          rw [if_pos rfl, runs_upToChange h, List.cons_append, readSources_cons, changes_upToChange,
            h, if_pos rfl, upToChange_upToChange, if_pos rfl, ih]
      | false =>
          have hruns : runs source = if source = [] then [] else [source] :=
            runsFrom_of_not_changes h []
          rw [if_neg (by simp), List.append_nil, upToChange_eq_self h, if_neg (by simp), hruns]
          split
          · next hempty =>
            rw [hempty]
            exact readSources_cons c [] []
          · rw [List.singleton_append, readSources_cons, h, if_neg (by simp)]

/-- **REPLAYS**: the recording of a client reads back, and a client that reads its runs, and an
empty source behind them, comes to the same engine and publishes the same as the first one. -/
theorem replay_recording (sources : List (List Frame)) :
    let first := run (sources.map Pacing.atOnce)
    ∃ frames, Recording.load (Recording.text first.recorded) = .ok frames ∧
      let second := run ((runs frames ++ [[]]).map Pacing.atOnce)
      second.engine = first.engine ∧ second.published = first.published := by
  intro first
  have hrecorded : first.recorded = readFrom sources := recorded_readSources (c := {}) rfl sources
  have hsame : run ((runs first.recorded ++ [[]]).map Pacing.atOnce) = first := by
    rw [hrecorded]
    exact readSources_runs {} sources
  exact ⟨first.recorded, load_text _, by rw [hsame], by rw [hsame]⟩

end Client

end Pitwall
