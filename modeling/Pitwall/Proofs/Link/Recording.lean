import Pitwall.Link.Recording
import Pitwall.Proofs.Wire.Writing

/-!
# Recordings read back — frame by frame and line by line

A frame is one line, from which it reads back: **`Frame.ofText?_line`**. The lines of a recording
are those of its frames (**`Recording.lines_chars`**), so a recording reads back as the frames that
it was written from, whatever their payloads are (**`Recording.load_text`**). The two together say
that recordings round-trip: **`Recording.round_trip`**.
-/

namespace Pitwall

/-! ## Frames -/

namespace Frame

theorem namesApart : record.NamesApart := by
  simp [Record.NamesApart, record, Field.needed, Field.of, Field.isNamed]

/-- Both fields are written as texts. -/
theorem exists_write_eq_str (f : Frame) {field : Field Frame} (h : field ∈ record.fields) :
    ∃ text, field.write f = .str text := by
  rcases List.mem_cons.1 h with rfl | h
  · exact ⟨_, rfl⟩
  · obtain rfl := List.mem_singleton.1 h
    exact ⟨_, rfl⟩

theorem legible_write (f : Frame) {field : Field Frame} (h : field ∈ record.fields) :
    (field.write f).Legible := by
  obtain ⟨text, htext⟩ := f.exists_write_eq_str h
  rw [htext]
  exact .str text

theorem settled_write (f : Frame) {field : Field Frame} (h : field ∈ record.fields) :
    (field.write f).Settled := by
  obtain ⟨text, htext⟩ := f.exists_write_eq_str h
  rw [htext]
  exact Json.settled_str text

/-- **A FRAME READS BACK** from its line, whatever its payload is. -/
theorem ofText?_line (f : Frame) : record.ofText? (String.ofList f.line) = some f := by
  rw [line, Record.ofText?_write (fun _ h => f.legible_write h) fun _ h => f.settled_write h,
    Record.readObject_write namesApart]
  simp [record, Field.needed, Field.read_write_of, Codec.faithful_instant, Codec.faithful_string]

/-- A frame is one line. -/
theorem newline_not_mem_line (f : Frame) : '\n' ∉ f.line := by
  refine Json.newline_not_mem_chars (.obj fun e he => ?_)
  obtain ⟨field, hfield, rfl⟩ := List.mem_map.1 he
  exact f.legible_write hfield

end Frame

/-! ## Recordings -/

namespace Recording

theorem splitAt_chars (frames : List Frame) :
    Text.splitAt (· == '\n') (chars frames) = frames.map Frame.line ++ [[]] := by
  induction frames with
  | nil => rfl
  | cons f fs ih =>
      have hline : ∀ c ∈ f.line, (c == '\n') = false := by
        intro c hc
        refine beq_eq_false_iff_ne.2 ?_
        rintro rfl
        exact f.newline_not_mem_line hc
      rw [chars, List.flatMap_cons, List.append_assoc, List.singleton_append,
        Text.splitAt_append hline rfl, List.map_cons, List.cons_append, ← ih]
      rfl

/-- **ONE LINE A FRAME.** -/
theorem lines_chars (frames : List Frame) : lines (chars frames) = frames.map Frame.line := by
  rw [lines, splitAt_chars]
  simp

/-- **RECORDINGS READ BACK.** -/
theorem load_text (frames : List Frame) : load (text frames) = .ok frames := by
  have hframes : (frames.map Frame.line).mapM
      (fun l => Frame.record.ofText? (String.ofList l)) = some frames := by
    induction frames with
    | nil => rfl
    | cons f fs ih => simp [List.mapM_cons, f.ofText?_line, ih]
  rw [load, text, String.toList_ofList, lines_chars, hframes]

/-- A recording has as many line ends as frames. -/
theorem count_newline_chars (frames : List Frame) : (chars frames).count '\n' = frames.length := by
  induction frames with
  | nil => rfl
  | cons f fs ih =>
      have hline : f.line.count '\n' = 0 := List.count_eq_zero.2 f.newline_not_mem_line
      have hrest : (fs.flatMap (fun f => f.line ++ ['\n'])).count '\n' = fs.length := ih
      rw [chars, List.flatMap_cons, List.count_append, List.count_append, hline, hrest,
        List.count_singleton_self, List.length_cons]
      omega

/-- **RECORDINGS ROUND-TRIP**: whatever the payloads say and whenever the frames came in, the text
that is written reads back as the same frames in the same order. It has one line for each frame, and
no line end but those. The times are all that the reader of times can produce, leap seconds and
years of any sign included: `Instant.read?_text` gives each of them back. -/
theorem round_trip (frames : List Frame) :
    load (text frames) = .ok frames ∧
      lines (text frames).toList = frames.map Frame.line ∧
      (text frames).toList.count '\n' = frames.length := by
  refine ⟨load_text frames, ?lines, ?ends⟩
  case lines =>
    rw [text, String.toList_ofList]
    exact lines_chars frames
  case ends =>
    rw [text, String.toList_ofList]
    exact count_newline_chars frames

end Recording

end Pitwall
