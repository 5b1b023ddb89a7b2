import Pitwall.Text.Capital

/-!
# Words — cutting a text at marks and joining the pieces

Names of cars and of weather are words joined by marks. **`splitAt`** cuts at every mark and
keeps empty pieces, so that joining the pieces with the mark gives the text back.
-/

namespace Pitwall.Text

/-- Puts a character in front of the first of some pieces, or begins a new piece at a mark. -/
def addPiece (mark : Char → Bool) (c : Char) (pieces : List (List Char)) : List (List Char) :=
  if mark c then [] :: pieces
  else
    match pieces with
    | [] => [[c]]
    | piece :: pieces => (c :: piece) :: pieces

/-- The pieces between the marks; a text without a mark is one piece. -/
def splitAt (mark : Char → Bool) (cs : List Char) : List (List Char) :=
  cs.foldr (addPiece mark) [[]]

theorem splitAt_cons (mark : Char → Bool) (c : Char) (cs : List Char) :
    splitAt mark (c :: cs) = addPiece mark c (splitAt mark cs) := rfl

/-- The pieces one after the other with a separator between them. -/
def join (separator : List Char) : List (List Char) → List Char
  | [] => []
  | [piece] => piece
  | piece :: pieces => piece ++ separator ++ join separator pieces

/-- Whether a text stands somewhere in another one. -/
def occursIn (needle : List Char) : List Char → Bool
  | [] => needle.isEmpty
  | c :: cs => needle.isPrefixOf (c :: cs) || occursIn needle cs

theorem splitAt_ne_nil (mark : Char → Bool) (cs : List Char) : splitAt mark cs ≠ [] := by
  induction cs with
  | nil => simp [splitAt]
  | cons c cs ih =>
    rw [splitAt_cons]; unfold addPiece
    split
    · simp
    · split <;> simp

/-- Joining the pieces with the mark they were cut at gives the text back. -/
theorem join_splitAt (m : Char) (cs : List Char) : join [m] (splitAt (· == m) cs) = cs := by
  induction cs with
  | nil => rfl
  | cons c cs ih =>
    rw [splitAt_cons]; unfold addPiece
    cases hs : splitAt (· == m) cs with
    | nil => exact absurd hs (splitAt_ne_nil _ _)
    | cons piece pieces =>
      rw [hs] at ih
      split
      · next hc =>
        rw [join, ih, eq_of_beq hc]
        · rfl
        · simp
      · cases pieces with
        | nil => simpa [join] using ih
        | cons q qs => simpa [join] using ih

/-- What stands before a mark is a piece. -/
theorem splitAt_append {mark : Char → Bool} {piece : List Char}
    (hpiece : ∀ c ∈ piece, mark c = false) {m : Char} (hm : mark m = true) (rest : List Char) :
    splitAt mark (piece ++ m :: rest) = piece :: splitAt mark rest := by
  induction piece with
  | nil => simp [splitAt_cons, addPiece, hm]
  | cons c cs ih =>
      obtain ⟨hc, hcs⟩ := List.forall_mem_cons.1 hpiece
      simp [splitAt_cons, ih hcs, addPiece, hc]

/-- A folder name as a readable one: the words between underscores and hyphens, each with a
capital, with spaces between them. -/
def readableName (name : String) : String :=
  let words := (splitAt (fun c => c == '_' || c == '-') name.toList).filter (!·.isEmpty)
  String.ofList (join [' '] (words.map capitalise))

end Pitwall.Text
