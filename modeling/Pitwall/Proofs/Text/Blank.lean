import Mathlib.Data.List.DropRight
import Pitwall.Text.Blank

/-!
# Blank — what is left when white space is cut off

Cutting white space off both ends splits a text in three: white space, what is kept, and white
space. What is kept neither begins nor ends with white space, and there is only one such split:
**`trim_eq_iff`**.
-/

namespace Pitwall.Text

variable {cs kept : List Char}

/-- The text neither begins nor ends with white space. -/
structure Bare (cs : List Char) : Prop where
  start : ∀ c ∈ cs.head?, isBlank c = false
  stop : ∀ c ∈ cs.getLast?, isBlank c = false

/-- What is left after trimming the end does not end with white space. -/
theorem not_isBlank_of_getLast?_trimEnd {c : Char} (h : (trimEnd cs).getLast? = some c) :
    isBlank c = false := by
  rw [trimEnd, List.getLast?_reverse] at h
  obtain ⟨rest, hrest⟩ := List.head?_eq_some_iff.1 h
  exact not_isBlank_of_trimStart_eq_cons hrest

theorem bare_trim (cs : List Char) : Bare (trim cs) where
  start := by
    intro c hc
    -- trimming the end only takes something away from the end
    obtain ⟨back, hback⟩ : trim cs <+: trimStart cs := List.rdropWhile_prefix isBlank (trimStart cs)
    obtain ⟨rest, hrest⟩ := List.head?_eq_some_iff.1 hc
    rw [hrest, List.cons_append] at hback
    exact not_isBlank_of_trimStart_eq_cons hback.symm
  stop := fun _ => not_isBlank_of_getLast?_trimEnd

/-- White space is all that is cut off. -/
theorem exists_eq_append_trim (cs : List Char) :
    ∃ front back, cs = front ++ trim cs ++ back ∧ ∀ c ∈ front ++ back, isBlank c = true := by
  refine ⟨cs.takeWhile isBlank, ((trimStart cs).reverse.takeWhile isBlank).reverse, ?_, ?_⟩
  · have hend : trimStart cs =
        trim cs ++ ((trimStart cs).reverse.takeWhile isBlank).reverse := by
      rw [trim, trimEnd, ← List.reverse_append, List.takeWhile_append_dropWhile,
        List.reverse_reverse]
    rw [List.append_assoc, ← hend]
    exact List.takeWhile_append_dropWhile.symm
  · intro c hc
    rcases List.mem_append.1 hc with hc | hc
    · exact List.mem_takeWhile_imp hc
    · exact List.mem_takeWhile_imp (List.mem_reverse.1 hc)

/-- White space in front is cut off. -/
theorem trimStart_append {front : List Char} (hfront : ∀ c ∈ front, isBlank c = true)
    (hkept : ∀ c ∈ kept.head?, isBlank c = false) : trimStart (front ++ kept) = kept := by
  rw [trimStart, List.dropWhile_append_of_pos hfront]
  cases kept with
  | nil => rfl
  | cons c rest => rw [List.dropWhile_cons_of_neg (by simp [hkept c rfl])]

/-- White space at the end is cut off. -/
theorem trimEnd_append {back : List Char} (hback : ∀ c ∈ back, isBlank c = true)
    (hkept : ∀ c ∈ kept.getLast?, isBlank c = false) : trimEnd (kept ++ back) = kept := by
  have hreverse : trimStart (back.reverse ++ kept.reverse) = kept.reverse :=
    trimStart_append (by simpa using hback) (by simpa using hkept)
  rw [trimEnd, List.reverse_append]
  exact (congrArg List.reverse hreverse).trans (List.reverse_reverse kept)

/-- **TRIMMING** splits a text into white space, what is kept and white space; what is kept neither
begins nor ends with any. -/
theorem trim_eq_iff :
    trim cs = kept ↔ Bare kept ∧
      ∃ front back, cs = front ++ kept ++ back ∧ ∀ c ∈ front ++ back, isBlank c = true := by
  constructor
  · rintro rfl
    exact ⟨bare_trim cs, exists_eq_append_trim cs⟩
  · rintro ⟨hkept, front, back, rfl, hblank⟩
    have hfront : ∀ c ∈ front, isBlank c = true := fun c hc => hblank c (List.mem_append_left _ hc)
    have hback : ∀ c ∈ back, isBlank c = true := fun c hc => hblank c (List.mem_append_right _ hc)
    cases kept with
    | nil =>
        -- all of the text is white space
        rw [List.append_nil, trim, trimStart, List.dropWhile_eq_nil_iff.2 hblank]
        rfl
    | cons c rest =>
        have hstart : ∀ d ∈ (c :: rest ++ back).head?, isBlank d = false := hkept.start
        rw [trim, List.append_assoc, trimStart_append hfront hstart,
          trimEnd_append hback hkept.stop]

/-- Where there is nothing to cut off, nothing is. -/
theorem Bare.trim_eq (h : Bare cs) : trim cs = cs :=
  trim_eq_iff.2 ⟨h, [], [], (List.append_nil cs).symm, List.forall_mem_nil _⟩

end Pitwall.Text
