import Pitwall.Json.Written
import Pitwall.Proofs.Json.Scanning

/-!
# Reading printed values — the tree of a printed value

From the tokens of a value its tree is built, **`Written.ofJson`**, so a printed value reads back as
its tree: **`Written.read?_chars`**. A printed value is one line (**`newline_not_mem_chars`**).
-/

namespace Pitwall.Json

namespace Written

/-! ## Trees of values -/

mutual

/-- A value as its text shows it. -/
def ofJson : Json → Written
  | .null => .null
  | .bool b => .bool b
  | .num n => .num (some n)
  | .str s => .str (some s)
  | .arr items => .arr (ofItems items)
  | .obj fields => .obj (ofFields fields)

def ofItems : List Json → List Written
  | [] => []
  | j :: js => ofJson j :: ofItems js

def ofFields : List (String × Json) → List (Option String × Written)
  | [] => []
  | (name, j) :: fields => (some name, ofJson j) :: ofFields fields

end

/-! ## Building the tree -/

/-- What comes next after the given tokens. -/
def Stage.run? (s : Stage) (ts : List Token) : Option Stage := ts.foldlM Stage.step s

variable (above : List Open) (ts : List Token)

/-- No item begins with the end of an array. -/
theorem run?_firstItem (j : Json) (js : List Json) :
    (Stage.firstItem above).run? (itemTokens (j :: js) ++ ts) =
      (Stage.value (.arr [] :: above)).run? (itemTokens (j :: js) ++ ts) := by
  cases js <;> cases j <;> rfl

theorem run?_firstField (e : String × Json) (fields : List (String × Json)) :
    (Stage.firstField above).run? (fieldTokens (e :: fields) ++ ts) =
      (Stage.name [] above).run? (fieldTokens (e :: fields) ++ ts) := by
  cases fields <;> rfl

mutual

/-- **A VALUE** is built from its tokens and handed to the container around it. -/
theorem run?_tokens (j : Json) (above : List Open) (ts : List Token) :
    (Stage.value above).run? (j.tokens ++ ts) = (complete (ofJson j) above).run? ts := by
  match j with
  | .null => rfl
  | .bool b => rfl
  | .num n => rfl
  | .str s => rfl
  | .arr [] => rfl
  | .arr (j :: js) =>
      have htokens : (Json.arr (j :: js)).tokens ++ ts =
          .openArr :: (itemTokens (j :: js) ++ .closeArr :: ts) := by simp [tokens]
      rw [htokens]
      exact (run?_firstItem above _ j js).trans
        (run?_itemTokens (List.cons_ne_nil j js) [] above ts)
  | .obj [] => rfl
  | .obj (e :: fields) =>
      have htokens : (Json.obj (e :: fields)).tokens ++ ts =
          .openObj :: (fieldTokens (e :: fields) ++ .closeObj :: ts) := by simp [tokens]
      rw [htokens]
      exact (run?_firstField above _ e fields).trans
        (run?_fieldTokens (List.cons_ne_nil e fields) [] above ts)

theorem run?_itemTokens {js : List Json} (hjs : js ≠ []) (read : List Written)
    (above : List Open) (ts : List Token) :
    (Stage.value (.arr read :: above)).run? (itemTokens js ++ .closeArr :: ts) =
      (complete (.arr (read.reverse ++ ofItems js)) above).run? ts := by
  match js with
  | [] => exact absurd rfl hjs
  | [j] =>
      have hread : (ofJson j :: read).reverse = read.reverse ++ ofItems [j] := by simp [ofItems]
      rw [itemTokens, run?_tokens j, ← hread]
      rfl
  | j :: j' :: js =>
      have htokens : itemTokens (j :: j' :: js) ++ .closeArr :: ts =
          j.tokens ++ .comma :: (itemTokens (j' :: js) ++ .closeArr :: ts) := by simp [itemTokens]
      have hread : (ofJson j :: read).reverse ++ ofItems (j' :: js) =
          read.reverse ++ ofItems (j :: j' :: js) := by simp [ofItems]
      have hrest := run?_itemTokens (List.cons_ne_nil j' js) (ofJson j :: read) above ts
      rw [htokens, run?_tokens j, ← hread]
      exact hrest

theorem run?_fieldTokens {fields : List (String × Json)} (hfields : fields ≠ [])
    (read : List (Option String × Written)) (above : List Open) (ts : List Token) :
    (Stage.name read above).run? (fieldTokens fields ++ .closeObj :: ts) =
      (complete (.obj (read.reverse ++ ofFields fields)) above).run? ts := by
  match fields with
  | [] => exact absurd rfl hfields
  | [(name, j)] =>
      have htokens : fieldTokens [(name, j)] ++ .closeObj :: ts =
          .str (some name) :: .colon :: (j.tokens ++ .closeObj :: ts) := by simp [fieldTokens]
      have hread : ((some name, ofJson j) :: read).reverse =
          read.reverse ++ ofFields [(name, j)] := by simp [ofFields]
      rw [htokens, ← hread]
      exact run?_tokens j (.obj read (some name) :: above) (.closeObj :: ts)
  | (name, j) :: e :: fields =>
      have htokens : fieldTokens ((name, j) :: e :: fields) ++ .closeObj :: ts =
          .str (some name) :: .colon ::
            (j.tokens ++ .comma :: (fieldTokens (e :: fields) ++ .closeObj :: ts)) := by
        simp [fieldTokens]
      have hread : ((some name, ofJson j) :: read).reverse ++ ofFields (e :: fields) =
          read.reverse ++ ofFields ((name, j) :: e :: fields) := by simp [ofFields]
      rw [htokens, ← hread]
      exact (run?_tokens j (.obj read (some name) :: above) _).trans
        (run?_fieldTokens (List.cons_ne_nil e fields) _ above ts)

end

/-- The text of a value is read as the tree of what it says. -/
theorem read?_chars_said {j : Json} (hj : j.Readable) : read? j.chars = some (ofJson j.said) := by
  have hrun : (Stage.value []).run? j.said.tokens = some (.done (ofJson j.said)) := by
    rw [← List.append_nil j.said.tokens]
    exact run?_tokens j.said [] []
  rw [Stage.run?] at hrun
  rw [read?, Token.scan?_chars hj, Option.bind_eq_bind, Option.bind_some, ofTokens?, hrun]

/-- **PRINTED VALUES READ BACK** as their trees. -/
theorem read?_chars {j : Json} (hj : j.Legible) : read? j.chars = some (ofJson j) := by
  rw [read?_chars_said hj.readable, hj.said_eq]

end Written

/-! ## One line -/

/-- The end of a line is escaped. -/
theorem newline_not_mem_escapeChar (c : Char) : '\n' ∉ escapeChar c := by
  have hdigit (n : Nat) : '\n' ≠ hexDigit n := (Nat.digitChar_ne _ (by decide)).symm
  rcases Token.escapeChar_cases c with ⟨letter, htext, hletter⟩ | ⟨-, htext⟩ | ⟨-, -, hplain, htext⟩
  · -- no escape is written with the end of a line
    have hne : '\n' ≠ letter := by
      rintro rfl
      cases hletter
    simp [htext, hne]
  · simp [htext, hdigit]
  · have hne : '\n' ≠ c := by
      rintro rfl
      exact hplain (by decide)
    simp [htext, hne]

theorem newline_not_mem_stringText (s : String) : '\n' ∉ stringText s := by
  simp [stringText, newline_not_mem_escapeChar]

mutual

/-- **ONE LINE**: no printed value ends a line. -/
theorem newline_not_mem_chars {j : Json} (hj : j.Legible) : '\n' ∉ j.chars := by
  match j with
  | .null => decide
  | .bool true => decide
  | .bool false => decide
  | .num n =>
      cases hj with
      | num hn =>
          intro h
          cases hn.not_endsWord _ h
  | .str s => exact newline_not_mem_stringText s
  | .arr items =>
      cases hj with
      | arr hitems => simp [chars, newline_not_mem_itemChars hitems]
  | .obj fields =>
      cases hj with
      | obj hfields => simp [chars, newline_not_mem_fieldChars hfields]

theorem newline_not_mem_itemChars {js : List Json} (hjs : ∀ j ∈ js, j.Legible) :
    '\n' ∉ itemChars js := by
  match js with
  | [] => simp [itemChars]
  | [j] => exact newline_not_mem_chars (hjs j (List.mem_singleton_self j))
  | j :: j' :: js =>
      obtain ⟨hj, hjs⟩ := List.forall_mem_cons.1 hjs
      simp [itemChars, newline_not_mem_chars hj, newline_not_mem_itemChars hjs]

theorem newline_not_mem_fieldChars {fields : List (String × Json)}
    (h : ∀ e ∈ fields, e.2.Legible) : '\n' ∉ fieldChars fields := by
  match fields with
  | [] => simp [fieldChars]
  | [(name, j)] =>
      have hj : j.Legible := h (name, j) (List.mem_singleton_self _)
      simp [fieldChars, newline_not_mem_stringText, newline_not_mem_chars hj]
  | (name, j) :: e :: fields =>
      obtain ⟨hj, hfields⟩ := List.forall_mem_cons.1 h
      simp [fieldChars, newline_not_mem_stringText, newline_not_mem_chars hj,
        newline_not_mem_fieldChars hfields]

end

end Pitwall.Json
