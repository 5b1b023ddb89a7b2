import Pitwall.Proofs.Link.Replay

/-!
# Cutting — where one run ends and the next begins

A recording is cut right behind each frame that announces another version, and nowhere else: that is
what **`Recording.CutAtChanges`** asks of its runs. Reading a frame at a time keeps to it, the run
under way being what has come in since the last cut (**`Recording.cutAtChanges_runsFrom`**). It also
leaves no choice, since the first run can be told from the frames in one way only
(**`Recording.runs_append`**). So the runs of a recording are those and no others:
**`Recording.runs_eq_iff`**.
-/

namespace Pitwall

namespace Frame

/-- The frame decodes to the announcement of another version of the protocol. -/
def AnnouncesVersion (f : Frame) : Prop :=
  ∃ version, Message.decode? f.payload = some (.versionChanged version)

theorem changesVersion_iff {f : Frame} : f.changesVersion = true ↔ f.AnnouncesVersion := by
  rw [changesVersion]
  split
  · next version hdecode => exact iff_of_true rfl ⟨version, hdecode⟩
  · next hother =>
    refine iff_of_false Bool.false_ne_true ?_
    rintro ⟨version, hdecode⟩
    exact hother version hdecode

end Frame

namespace Recording

variable {f : Frame} {fs run rest : List Frame} {rs : List (List Frame)}

/-- Frames are cut into runs where the version changes, and nowhere else. -/
structure CutAtChanges (frames : List Frame) (rs : List (List Frame)) : Prop where
  /-- One behind the other, the runs are the frames again. -/
  flatten : rs.flatten = frames
  /-- No run is empty. -/
  nonempty : ∀ run ∈ rs, run ≠ []
  /-- Every run but the last ends with a frame that announces another version. -/
  ended : ∀ run ∈ rs.dropLast, ∃ f ∈ run.getLast?, f.AnnouncesVersion
  /-- No other frame of a run does. -/
  inside : ∀ run ∈ rs, ∀ f ∈ run.dropLast, ¬ f.AnnouncesVersion

/-! ## Reading keeps to it -/

theorem cutAtChanges_nil : CutAtChanges [] [] where
  flatten := rfl
  nonempty := List.forall_mem_nil _
  ended := List.forall_mem_nil _
  inside := List.forall_mem_nil _

/-- Frames of which none before the last announces another version are one run. -/
theorem cutAtChanges_singleton (hne : fs ≠ []) (hfs : ∀ f ∈ fs.dropLast, ¬ f.AnnouncesVersion) :
    CutAtChanges fs [fs] where
  flatten := List.append_nil fs
  nonempty := List.forall_mem_singleton.2 hne
  ended := List.forall_mem_nil _
  inside := List.forall_mem_singleton.2 hfs

/-- One more run in front ends with the first frame that announces another version. -/
theorem CutAtChanges.cons (h : CutAtChanges fs rs) (hrun : ∀ f ∈ run, ¬ f.AnnouncesVersion)
    (hf : f.AnnouncesVersion) : CutAtChanges (run ++ f :: fs) ((run ++ [f]) :: rs) where
  flatten := by rw [List.flatten_cons, h.flatten, List.append_assoc, List.singleton_append]
  nonempty := by
    refine List.forall_mem_cons.2 ⟨?_, h.nonempty⟩
    exact List.append_ne_nil_of_right_ne_nil run (List.cons_ne_nil f [])
  ended := by
    cases rs with
    | nil => exact List.forall_mem_nil _
    | cons r rs =>
        rw [List.dropLast_cons_of_ne_nil (List.cons_ne_nil r rs)]
        exact List.forall_mem_cons.2 ⟨⟨f, List.getLast?_concat, hf⟩, h.ended⟩
  inside := by
    refine List.forall_mem_cons.2 ⟨?_, h.inside⟩
    rw [List.dropLast_concat]
    exact hrun

/-- **READING CUTS AT CHANGES**, as long as the run under way holds none. -/
theorem cutAtChanges_runsFrom (hrun : ∀ f ∈ run, ¬ f.AnnouncesVersion) (fs : List Frame) :
    CutAtChanges (run.reverse ++ fs) (runsFrom run fs) := by
  induction fs generalizing run with
  | nil =>
      rw [runsFrom, List.append_nil]
      split
      · next hempty =>
        rw [List.isEmpty_iff.1 hempty]
        exact cutAtChanges_nil
      · next hfilled =>
        refine cutAtChanges_singleton (by simpa using hfilled) fun f hf => ?_
        exact hrun f (List.mem_reverse.1 (List.dropLast_subset _ hf))
  | cons f fs ih =>
      rw [runsFrom]
      split
      · next hf =>
        have hrest : CutAtChanges fs (runsFrom [] fs) := ih (List.forall_mem_nil _)
        rw [List.reverse_cons]
        refine hrest.cons ?_ (Frame.changesVersion_iff.1 hf)
        exact fun g hg => hrun g (List.mem_reverse.1 hg)
      · next hf =>
        have hon : ∀ g ∈ f :: run, ¬ g.AnnouncesVersion :=
          List.forall_mem_cons.2 ⟨fun hv => hf (Frame.changesVersion_iff.2 hv), hrun⟩
        have hrest := ih hon
        rw [List.reverse_cons, List.append_assoc, List.singleton_append] at hrest
        exact hrest

/-! ## There is no other way -/

theorem CutAtChanges.tail {frames : List Frame} (h : CutAtChanges frames (run :: rs)) :
    CutAtChanges rs.flatten rs where
  flatten := rfl
  nonempty := (List.forall_mem_cons.1 h.nonempty).2
  ended := by
    cases rs with
    | nil => exact List.forall_mem_nil _
    | cons r rs =>
        have hended := h.ended
        rw [List.dropLast_cons_of_ne_nil (List.cons_ne_nil r rs)] at hended
        exact (List.forall_mem_cons.1 hended).2
  inside := (List.forall_mem_cons.1 h.inside).2

/-- If no frame before the last announces another version, a client would read all of them. -/
theorem upToChange_eq_self_of_inside (h : ∀ f ∈ fs.dropLast, ¬ f.AnnouncesVersion) :
    upToChange fs = fs := by
  induction fs with
  | nil => rfl
  | cons f fs ih =>
      rw [upToChange_cons]
      cases fs with
      | nil =>
          split <;> rfl
      | cons g fs =>
          rw [List.dropLast_cons_of_ne_nil (List.cons_ne_nil g fs), List.forall_mem_cons] at h
          rw [if_neg fun hf => h.1 (Frame.changesVersion_iff.1 hf), ih h.2]

/-- **THE FIRST RUN** ends with the first change of version, or with the last frame. -/
theorem runs_append (hne : run ≠ []) (hinside : ∀ f ∈ run.dropLast, ¬ f.AnnouncesVersion)
    (hend : rest = [] ∨ changes run = true) : runs (run ++ rest) = run :: runs rest := by
  cases h : changes run with
  | true =>
      have hcut := runs_upToChange h rest
      rw [upToChange_eq_self_of_inside hinside] at hcut
      exact hcut
  | false =>
      obtain rfl : rest = [] := hend.resolve_right (by simp [h])
      have hone : runs run = if run = [] then [] else [run] := runsFrom_of_not_changes h []
      rw [List.append_nil, hone, if_neg hne]
      rfl

theorem CutAtChanges.runs_eq {frames : List Frame} (h : CutAtChanges frames rs) :
    runs frames = rs := by
  induction rs generalizing frames with
  | nil =>
      rw [← h.flatten]
      rfl
  | cons run rs ih =>
      have hend : rs.flatten = [] ∨ changes run = true := by
        cases rs with
        | nil => exact Or.inl rfl
        | cons r rs =>
            obtain ⟨f, hlast, hf⟩ := h.ended run (by simp)
            have hmem : f ∈ run := List.mem_of_getLast? hlast
            exact Or.inr (List.any_eq_true.2 ⟨f, hmem, Frame.changesVersion_iff.2 hf⟩)
      have hnonempty := h.nonempty run List.mem_cons_self
      have hinside := h.inside run List.mem_cons_self
      rw [← h.flatten, List.flatten_cons, runs_append hnonempty hinside hend, ih h.tail]

/-- **CUTTING LOSES NOTHING**: the runs of any frames are those frames one behind the other, none of
them is empty, every one but the last ends with a frame that announces another version, and no other
frame does. There is only one such list of runs. -/
theorem runs_eq_iff (frames : List Frame) (rs : List (List Frame)) :
    runs frames = rs ↔ CutAtChanges frames rs := by
  constructor
  · rintro rfl
    exact cutAtChanges_runsFrom (List.forall_mem_nil _) frames
  · exact CutAtChanges.runs_eq

/-- Two changes in a row and one at the end: no run between or behind them. What is no version does
not cut. -/
example :
    let frame (payload : String) : Frame := ⟨.zero, payload⟩
    runs [frame "[56,4]", frame "[56,5]", frame "[56,-1]", frame "[56,6]"] =
      [[frame "[56,4]"], [frame "[56,5]"], [frame "[56,-1]", frame "[56,6]"]] := by
  decide +kernel

end Recording

end Pitwall
