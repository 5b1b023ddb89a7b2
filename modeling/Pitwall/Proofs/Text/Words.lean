import Mathlib.Data.List.Infix
import Pitwall.Text.Words

/-!
# Words — what the pieces of a text hold

Cutting goes on behind a mark as if the text began there (**`splitAt_append_cons`**), and what
stands in front of the first mark stays together (**`splitAt_append_of_not_mark`**). Every piece is
a part of the text (**`infix_of_mem_splitAt`**), so what does not occur in the text occurs in none
of its pieces.
-/

namespace Pitwall.Text

variable {mark : Char → Bool} {cs needle : List Char}

/-- The test is for a part of the text. -/
theorem occursIn_iff : occursIn needle cs = true ↔ needle <:+: cs := by
  induction cs with
  | nil =>
      rw [occursIn, List.isEmpty_iff, List.infix_nil]
  | cons c cs ih =>
      rw [occursIn, Bool.or_eq_true, List.isPrefixOf_iff_prefix, ih, List.infix_cons_iff]

/-- A character that occurs does so for a last time. -/
theorem exists_last_of_mem {c : Char} (h : c ∈ cs) :
    ∃ front behind, cs = front ++ c :: behind ∧ c ∉ behind := by
  obtain ⟨back, front, hsplit, hback⟩ := List.eq_append_cons_of_mem (List.mem_reverse.2 h)
  refine ⟨front.reverse, back.reverse, ?_, by simpa using hback⟩
  rw [← List.reverse_reverse cs, hsplit]
  simp

/-! ## Pieces -/

/-- Behind a mark the pieces are those of the rest. -/
theorem splitAt_append_cons (cs : List Char) {m : Char} (hm : mark m = true) (rest : List Char) :
    splitAt mark (cs ++ m :: rest) = splitAt mark cs ++ splitAt mark rest := by
  induction cs with
  | nil =>
      show splitAt mark (m :: rest) = [] :: splitAt mark rest
      simp [splitAt_cons, addPiece, hm]
  | cons c cs ih =>
      rw [List.cons_append, splitAt_cons, ih, splitAt_cons]
      cases hs : splitAt mark cs with
      | nil => exact absurd hs (splitAt_ne_nil mark cs)
      | cons piece pieces =>
          simp only [addPiece, List.cons_append]
          split <;> rfl

/-- Without a mark in it, the beginning of a text begins the first piece. -/
theorem splitAt_append_of_not_mark (h : ∀ c ∈ cs, mark c = false) (rest : List Char) :
    ∃ piece pieces, splitAt mark (cs ++ rest) = (cs ++ piece) :: pieces := by
  induction cs with
  | nil => exact List.exists_cons_of_ne_nil (splitAt_ne_nil mark rest)
  | cons c cs ih =>
      obtain ⟨hc, hcs⟩ := List.forall_mem_cons.1 h
      obtain ⟨piece, pieces, hpieces⟩ := ih hcs
      refine ⟨piece, pieces, ?_⟩
      simp [splitAt_cons, hpieces, addPiece, hc]

/-- The first piece begins the text, and the others are parts of it. -/
theorem prefix_and_infix_of_splitAt_eq_cons {piece : List Char} {pieces : List (List Char)}
    (h : splitAt mark cs = piece :: pieces) : piece <+: cs ∧ ∀ p ∈ pieces, p <:+: cs := by
  induction cs generalizing piece pieces with
  | nil =>
      cases h
      exact ⟨List.prefix_rfl, List.forall_mem_nil _⟩
  | cons c cs ih =>
      obtain ⟨first, others, hpieces⟩ := List.exists_cons_of_ne_nil (splitAt_ne_nil mark cs)
      obtain ⟨hfirst, hothers⟩ := ih hpieces
      have hall : ∀ p ∈ first :: others, p <:+: c :: cs := by
        intro p hp
        rcases List.mem_cons.1 hp with rfl | hp
        · exact hfirst.isInfix.trans (List.suffix_cons c cs).isInfix
        · exact (hothers p hp).trans (List.suffix_cons c cs).isInfix
      rw [splitAt_cons, hpieces, addPiece.eq_def] at h
      split at h
      · cases h
        exact ⟨List.nil_prefix, hall⟩
      · cases h
        exact ⟨List.cons_prefix_cons.2 ⟨rfl, hfirst⟩, (List.forall_mem_cons.1 hall).2⟩

/-- **PIECES** are parts of the text. -/
theorem infix_of_mem_splitAt {piece : List Char} (h : piece ∈ splitAt mark cs) :
    piece <:+: cs := by
  obtain ⟨first, others, hpieces⟩ := List.exists_cons_of_ne_nil (splitAt_ne_nil mark cs)
  obtain ⟨hfirst, hothers⟩ := prefix_and_infix_of_splitAt_eq_cons hpieces
  rw [hpieces] at h
  rcases List.mem_cons.1 h with rfl | h
  · exact hfirst.isInfix
  · exact hothers piece h

end Pitwall.Text
