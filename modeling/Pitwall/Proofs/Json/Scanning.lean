import Pitwall.Json.Printer
import Pitwall.Json.Token

/-!
# Scanning printed values — the tokens of a printed value

A printed value is scanned into the tokens of what its text says (**`Json.said`**), whatever follows
it as long as that ends its last word: **`Token.run?_chars`**. Every string can be printed, since
an escaped character is scanned as the character that it stands for (**`Token.run?_escaped`**).
Numbers must be **`Number.Readable`**, that is have the text of a number; where it is the text of
that very number they are **`Number.Legible`**, and the value is what its text says.
-/

namespace Pitwall.Json

/-! ## Tokens of a value -/

mutual

/-- The tokens that spell a value. -/
def tokens : Json → List Token
  | .null => [.null]
  | .bool b => [.bool b]
  | .num n => [.num (some n)]
  | .str s => [.str (some s)]
  | .arr items => .openArr :: itemTokens items ++ [.closeArr]
  | .obj fields => .openObj :: fieldTokens fields ++ [.closeObj]

/-- The tokens that spell items, with commas between them. -/
def itemTokens : List Json → List Token
  | [] => []
  | [j] => tokens j
  | j :: js => tokens j ++ .comma :: itemTokens js

/-- The tokens that spell fields, with commas between them. -/
def fieldTokens : List (String × Json) → List Token
  | [] => []
  | [(name, j)] => .str (some name) :: .colon :: tokens j
  | (name, j) :: fields =>
    .str (some name) :: .colon :: tokens j ++ .comma :: fieldTokens fields

end

/-! ## What a text says -/

/-- A number as its text says it. -/
def Number.said (n : Number) : Number :=
  match Token.ofWord? n.text with
  | some (.num (some m)) => m
  | _ => n

mutual

/-- A value as its text says it. -/
def said : Json → Json
  | .num n => .num n.said
  | .arr items => .arr (itemsSaid items)
  | .obj fields => .obj (fieldsSaid fields)
  | j => j

def itemsSaid : List Json → List Json
  | [] => []
  | j :: js => said j :: itemsSaid js

def fieldsSaid : List (String × Json) → List (String × Json)
  | [] => []
  | (name, j) :: fields => (name, said j) :: fieldsSaid fields

end

/-- The text of the number stands for a number. -/
structure Number.Readable (n : Number) : Prop where
  ofWord?_said : Token.ofWord? n.text = some (.num (some n.said))
  /-- The text is one word. -/
  in_word : ∀ c ∈ n.text, Token.endsWord c = false

/-- The numbers in the value are readable. -/
inductive Readable : Json → Prop
  | null : Readable .null
  | bool (b : Bool) : Readable (.bool b)
  | num {n : Number} (h : n.Readable) : Readable (.num n)
  | str (s : String) : Readable (.str s)
  | arr {items : List Json} (h : ∀ j ∈ items, Readable j) : Readable (.arr items)
  | obj {fields : List (String × Json)} (h : ∀ e ∈ fields, Readable e.2) : Readable (.obj fields)

/-- The number is what its text stands for. -/
structure Number.Legible (n : Number) : Prop where
  ofWord?_text : Token.ofWord? n.text = some (.num (some n))
  /-- The text is one word. -/
  not_endsWord : ∀ c ∈ n.text, Token.endsWord c = false

/-- The numbers in the value are legible. -/
inductive Legible : Json → Prop
  | null : Legible .null
  | bool (b : Bool) : Legible (.bool b)
  | num {n : Number} (h : n.Legible) : Legible (.num n)
  | str (s : String) : Legible (.str s)
  | arr {items : List Json} (h : ∀ j ∈ items, Legible j) : Legible (.arr items)
  | obj {fields : List (String × Json)} (h : ∀ e ∈ fields, Legible e.2) : Legible (.obj fields)

theorem Number.said_of_ofWord? {n m : Number}
    (h : Token.ofWord? n.text = some (.num (some m))) : n.said = m := by
  rw [said, h]

theorem Number.Legible.said_eq {n : Number} (h : n.Legible) : n.said = n :=
  said_of_ofWord? h.ofWord?_text

theorem Number.Legible.readable {n : Number} (h : n.Legible) : n.Readable :=
  ⟨by rw [h.said_eq, h.ofWord?_text], h.not_endsWord⟩

theorem Legible.readable {j : Json} (h : j.Legible) : j.Readable := by
  induction h with
  | null => exact .null
  | bool b => exact .bool b
  | num hn => exact .num hn.readable
  | str s => exact .str s
  | arr _ ih => exact .arr ih
  | obj _ ih => exact .obj ih

theorem itemsSaid_eq_map (js : List Json) : itemsSaid js = js.map said := by
  induction js with
  | nil => rfl
  | cons j js ih => rw [itemsSaid, ih, List.map_cons]

theorem fieldsSaid_eq_map (fields : List (String × Json)) :
    fieldsSaid fields = fields.map fun e => (e.1, e.2.said) := by
  induction fields with
  | nil => rfl
  | cons e fields ih => rw [fieldsSaid, ih, List.map_cons]

/-- A legible value is what its text says. -/
theorem Legible.said_eq {j : Json} (h : j.Legible) : j.said = j := by
  induction h with
  | null => rfl
  | bool b => rfl
  | num hn => rw [said, hn.said_eq]
  | str s => rfl
  | arr _ ih => rw [said, itemsSaid_eq_map, List.map_congr_left ih, List.map_id']
  | @obj fields _ ih =>
      have hfields : fields.map (fun e => (e.1, e.2.said)) = fields.map id :=
        List.map_congr_left fun e he => Prod.ext rfl (ih e he)
      rw [said, fieldsSaid_eq_map, hfields, List.map_id]

namespace Token

/-- The tokens of a text, if the scan has come to `s` when the given characters are left. -/
def Scan.run? (s : Scan) (cs : List Char) : Option (List Token) :=
  cs.foldlM Scan.step s >>= Scan.finish

theorem Scan.run?_nil (s : Scan) : s.run? [] = s.finish := rfl

theorem Scan.run?_cons (s : Scan) (c : Char) (cs : List Char) :
    s.run? (c :: cs) = (s.step c).bind (·.run? cs) := by
  rw [run?, List.foldlM_cons]
  exact Option.bind_assoc ..

/-- A scan that does not stop goes on. -/
theorem Scan.run?_of_step {s s' : Scan} {c : Char} (h : s.step c = some s') (cs : List Char) :
    s.run? (c :: cs) = s'.run? cs := by
  rw [run?_cons, h, Option.bind_some]

/-! ## Strings -/

/-- The pieces that have been read are a text, in front of all that follows. -/
def Spells (read : List Piece) (text : List Char) : Prop :=
  ∀ done, joinPieces done read = some (text ++ done)

theorem spells_nil : Spells [] [] := fun _ => rfl

variable {read : List Piece} {text : List Char}

theorem Spells.char (h : Spells read text) (c : Char) : Spells (.char c :: read) (text ++ [c]) := by
  intro done
  rw [joinPieces, h, List.append_assoc, List.singleton_append]

/-- A code unit below the surrogates is a character by itself. -/
theorem Spells.unit (h : Spells read text) {n : Nat} (hn : n < 0xD800) :
    Spells (.unit n :: read) (text ++ [Char.ofNat n]) := by
  intro done
  have hlead : isLead n = false := decide_eq_false (by omega)
  have htrail : isTrail n = false := decide_eq_false (by omega)
  have hjoin : joinPieces done (.unit n :: read) = joinPieces (Char.ofNat n :: done) read := by
    rw [joinPieces.eq_def]
    simp only [hlead, htrail, Bool.false_eq_true, if_false]
  rw [hjoin, h, List.append_assoc, List.singleton_append]

theorem hexDigit?_hexDigit {n : Nat} (h : n < 16) : hexDigit? (hexDigit n) = some n := by
  revert n
  decide

variable (ts : List Token) (rest : List Char)

/-- How a character stands in a string: by a letter, by its number, or as it is. -/
theorem escapeChar_cases (c : Char) :
    (∃ letter, escapeChar c = ['\\', letter] ∧ escaped? letter = some c) ∨
    (c < ' ' ∧ escapeChar c =
      ['\\', 'u', '0', '0', hexDigit (c.toNat / 16), hexDigit (c.toNat % 16)]) ∨
    (c ≠ '"' ∧ c ≠ '\\' ∧ ¬ c < ' ' ∧ escapeChar c = [c]) := by
  by_cases hletter : c ∈ ['"', '\\', '\x08', '\x0c', '\n', '\r', '\t']
  · simp only [List.mem_cons, List.not_mem_nil, or_false] at hletter
    rcases hletter with rfl | rfl | rfl | rfl | rfl | rfl | rfl
    all_goals exact .inl ⟨_, rfl, rfl⟩
  · simp only [List.mem_cons, List.not_mem_nil, or_false, not_or] at hletter
    by_cases hcontrol : c < ' '
    · exact .inr (.inl ⟨hcontrol, by simp [escapeChar, hletter, hcontrol]⟩)
    · exact .inr (.inr ⟨hletter.1, hletter.2.1, hcontrol, by simp [escapeChar, hletter, hcontrol]⟩)

/-- A letter behind a backslash. -/
theorem run?_escape {letter c : Char} (h : escaped? letter = some c) :
    Scan.run? ⟨.string read, ts⟩ ('\\' :: letter :: rest) =
      Scan.run? ⟨.string (.char c :: read), ts⟩ rest := by
  have hu : letter ≠ 'u' := by
    rintro rfl
    cases h
  have hstep : Scan.step ⟨.escape read, ts⟩ letter = some ⟨.string (.char c :: read), ts⟩ := by
    simp only [Scan.step, if_neg hu, h, Option.map_some]
  calc Scan.run? ⟨.string read, ts⟩ ('\\' :: letter :: rest)
      = Scan.run? ⟨.escape read, ts⟩ (letter :: rest) := Scan.run?_of_step rfl _
    _ = Scan.run? ⟨.string (.char c :: read), ts⟩ rest := Scan.run?_of_step hstep _

/-- A character below 256 by its number. -/
theorem run?_unit {n : Nat} (hn : n < 256) :
    Scan.run? ⟨.string read, ts⟩
        ('\\' :: 'u' :: '0' :: '0' :: hexDigit (n / 16) :: hexDigit (n % 16) :: rest) =
      Scan.run? ⟨.string (.unit n :: read), ts⟩ rest := by
  have hhigh := hexDigit?_hexDigit (n := n / 16) (by omega)
  have hlow := hexDigit?_hexDigit (n := n % 16) (by omega)
  have hvalue : 16 * (n / 16) + n % 16 = n := Nat.div_add_mod n 16
  have hback : Scan.step ⟨.string read, ts⟩ '\\' = some ⟨.escape read, ts⟩ := rfl
  have hu : Scan.step ⟨.escape read, ts⟩ 'u' = some ⟨.unit read 4 0, ts⟩ := rfl
  have hfirst : Scan.step ⟨.unit read 4 0, ts⟩ '0' = some ⟨.unit read 3 0, ts⟩ := rfl
  have hsecond : Scan.step ⟨.unit read 3 0, ts⟩ '0' = some ⟨.unit read 2 0, ts⟩ := rfl
  have hthird : Scan.step ⟨.unit read 2 0, ts⟩ (hexDigit (n / 16)) =
      some ⟨.unit read 1 (n / 16), ts⟩ := by
    simp [Scan.step, hhigh]
  have hfourth : Scan.step ⟨.unit read 1 (n / 16), ts⟩ (hexDigit (n % 16)) =
      some ⟨.string (.unit n :: read), ts⟩ := by
    simp [Scan.step, hlow, hvalue]
  rw [Scan.run?_of_step hback, Scan.run?_of_step hu, Scan.run?_of_step hfirst,
    Scan.run?_of_step hsecond, Scan.run?_of_step hthird, Scan.run?_of_step hfourth]

/-- A character that needs no escape stands for itself. -/
theorem run?_plain {c : Char} (hquote : c ≠ '"') (hback : c ≠ '\\') (hplain : ¬ c < ' ') :
    Scan.run? ⟨.string read, ts⟩ (c :: rest) = Scan.run? ⟨.string (.char c :: read), ts⟩ rest := by
  refine Scan.run?_of_step ?_ rest
  simp only [Scan.step, if_neg hquote, if_neg hback, if_neg hplain]

/-- **AN ESCAPED CHARACTER** is scanned as that character. -/
theorem run?_escapeChar (h : Spells read text) (c : Char) :
    ∃ read', Spells read' (text ++ [c]) ∧ ∀ rest,
      Scan.run? ⟨.string read, ts⟩ (escapeChar c ++ rest) =
        Scan.run? ⟨.string read', ts⟩ rest := by
  rcases escapeChar_cases c with ⟨letter, htext, hletter⟩ | ⟨hcontrol, htext⟩ |
    ⟨hquote, hback, hplain, htext⟩
  · rw [htext]
    exact ⟨_, h.char c, fun rest => run?_escape ts rest hletter⟩
  · have hc : c.toNat < 32 := hcontrol
    have hunit := h.unit (n := c.toNat) (by omega)
    rw [Char.ofNat_toNat] at hunit
    rw [htext]
    exact ⟨_, hunit, fun rest => run?_unit ts rest (by omega)⟩
  · rw [htext]
    exact ⟨_, h.char c, fun rest => run?_plain ts rest hquote hback hplain⟩

/-- **A STRING** is scanned as its text, whatever the characters in it. -/
theorem run?_escaped (h : Spells read text) (cs : List Char) :
    Scan.run? ⟨.string read, ts⟩ (cs.flatMap escapeChar ++ '"' :: rest) =
      Scan.run? ⟨.between, .str (some (String.ofList (text ++ cs))) :: ts⟩ rest := by
  induction cs generalizing read text with
  | nil =>
      have hclose : Scan.step ⟨.string read, ts⟩ '"' =
          some ⟨.between, .str (some (String.ofList text)) :: ts⟩ := by
        simp [Scan.step, h []]
      rw [List.flatMap_nil, List.nil_append, List.append_nil]
      exact Scan.run?_of_step hclose rest
  | cons c cs ih =>
      obtain ⟨read', hread', hscan⟩ := run?_escapeChar ts h c
      rw [List.flatMap_cons, List.append_assoc, hscan, ih hread', List.append_assoc,
        List.singleton_append]

theorem run?_stringText (s : String) :
    Scan.run? ⟨.between, ts⟩ (stringText s ++ rest) =
      Scan.run? ⟨.between, .str (some s) :: ts⟩ rest := by
  have hopen : Scan.step ⟨.between, ts⟩ '"' = some ⟨.string [], ts⟩ := rfl
  have hread := run?_escaped ts rest spells_nil s.toList
  rw [List.nil_append, String.ofList_toList] at hread
  rw [stringText, List.append_assoc, List.cons_append, Scan.run?_of_step hopen]
  exact hread

/-! ## Words and marks -/

/-- A word ends where these characters begin. -/
def EndsWord (rest : List Char) : Prop := ∀ c ∈ rest.head?, endsWord c = true

theorem endsWord_nil : EndsWord [] := fun _ h => nomatch h

theorem endsWord_cons {c : Char} (h : endsWord c = true) : EndsWord (c :: rest) := by
  rintro d hd
  rw [← Option.some.inj hd]
  exact h

theorem not_endsWord_of_all {word : List Char} (h : word.all (fun c => !endsWord c) = true) :
    ∀ c ∈ word, endsWord c = false := by
  simpa using h

theorem run?_ofMark? {c : Char} {t : Token} (h : ofMark? c = some t) (hblank : isBlank c = false)
    (hquote : c ≠ '"') :
    Scan.run? ⟨.between, ts⟩ (c :: rest) = Scan.run? ⟨.between, t :: ts⟩ rest := by
  refine Scan.run?_of_step ?_ rest
  simp [Scan.step, Scan.between, hblank, hquote, h]

/-- The characters of a word are read one by one. -/
theorem run?_inWord {cs : List Char} (hcs : ∀ c ∈ cs, endsWord c = false) (read : List Char) :
    Scan.run? ⟨.word read, ts⟩ (cs ++ rest) = Scan.run? ⟨.word (cs.reverse ++ read), ts⟩ rest := by
  induction cs generalizing read with
  | nil => rfl
  | cons c cs ih =>
      obtain ⟨hc, hcs⟩ := List.forall_mem_cons.1 hcs
      have hstep : Scan.step ⟨.word read, ts⟩ c = some ⟨.word (c :: read), ts⟩ := by
        simp [Scan.step, hc]
      rw [List.cons_append, Scan.run?_of_step hstep, ih hcs, List.reverse_cons, List.append_assoc,
        List.singleton_append]

/-- The characters of a word are read up to its end. -/
theorem run?_toEnd {word : List Char} (hne : word ≠ []) (hword : ∀ c ∈ word, endsWord c = false) :
    Scan.run? ⟨.between, ts⟩ (word ++ rest) = Scan.run? ⟨.word word.reverse, ts⟩ rest := by
  cases word with
  | nil => exact absurd rfl hne
  | cons c cs =>
      have hc : endsWord c = false := hword c List.mem_cons_self
      simp only [endsWord, Bool.or_eq_false_iff, beq_eq_false_iff_ne, Option.isSome_eq_false_iff,
        Option.isNone_iff_eq_none] at hc
      obtain ⟨⟨hblank, hquote⟩, hmark⟩ := hc
      have hstart : Scan.step ⟨.between, ts⟩ c = some ⟨.word [c], ts⟩ := by
        simp [Scan.step, Scan.between, hblank, hquote, hmark]
      rw [List.cons_append, Scan.run?_of_step hstart,
        run?_inWord ts rest fun c hc => hword c (List.mem_cons_of_mem _ hc), List.reverse_cons]

/-- A word is complete at the end of the text or with the character that ends it. -/
theorem run?_endWord {read : List Char} {t : Token} (ht : ofWord? read.reverse = some t)
    (hrest : EndsWord rest) :
    Scan.run? ⟨.word read, ts⟩ rest = Scan.run? ⟨.between, t :: ts⟩ rest := by
  cases rest with
  | nil =>
      rw [Scan.run?_nil, Scan.run?_nil]
      simp only [Scan.finish, ht, Option.map_some]
  | cons d rest =>
      have hd : endsWord d = true := hrest d rfl
      rw [Scan.run?_cons, Scan.run?_cons]
      simp only [Scan.step, hd, if_true, ht, Option.map_some]

/-- **A WORD** is scanned as the token that it stands for, where it ends. -/
theorem run?_word {word : List Char} {t : Token} (ht : ofWord? word = some t)
    (hword : ∀ c ∈ word, endsWord c = false) (hrest : EndsWord rest) :
    Scan.run? ⟨.between, ts⟩ (word ++ rest) = Scan.run? ⟨.between, t :: ts⟩ rest := by
  have hne : word ≠ [] := by
    rintro rfl
    cases ht
  rw [run?_toEnd ts rest hne hword]
  exact run?_endWord ts rest ((List.reverse_reverse word).symm ▸ ht) hrest

/-- A text of one word has one token at most. -/
theorem scan?_word {word : List Char} (hne : word ≠ []) (hword : ∀ c ∈ word, endsWord c = false) :
    scan? word = (ofWord? word).map fun t => [t] := by
  have hend := run?_toEnd [] [] hne hword
  rw [List.append_nil, Scan.run?_nil] at hend
  show Scan.run? ⟨.between, []⟩ word = _
  simp only [hend, Scan.finish, List.reverse_reverse, List.reverse_cons, List.reverse_nil,
    List.nil_append]

/-! ## Values -/

mutual

/-- **PRINTED VALUES** are scanned into the tokens of what they say. -/
theorem run?_chars {j : Json} (hj : j.Readable) (ts : List Token) {rest : List Char}
    (hrest : EndsWord rest) :
    Scan.run? ⟨.between, ts⟩ (j.chars ++ rest) =
      Scan.run? ⟨.between, j.said.tokens.reverse ++ ts⟩ rest := by
  match j with
  | .null => exact run?_word ts rest rfl (not_endsWord_of_all rfl) hrest
  | .bool true => exact run?_word ts rest rfl (not_endsWord_of_all rfl) hrest
  | .bool false => exact run?_word ts rest rfl (not_endsWord_of_all rfl) hrest
  | .num n =>
      cases hj with
      | num hn => exact run?_word ts rest hn.ofWord?_said hn.in_word hrest
  | .str s => exact run?_stringText ts rest s
  | .arr items =>
      cases hj with
      | arr hitems =>
          have hclose : EndsWord (']' :: rest) := endsWord_cons rest rfl
          simp only [chars, said, tokens, List.cons_append, List.append_assoc, List.nil_append]
          rw [run?_ofMark? ts _ rfl rfl (by decide), run?_itemChars hitems _ hclose,
            run?_ofMark? _ _ rfl rfl (by decide)]
          simp
  | .obj fields =>
      cases hj with
      | obj hfields =>
          have hclose : EndsWord ('\x7d' :: rest) := endsWord_cons rest rfl
          simp only [chars, said, tokens, List.cons_append, List.append_assoc, List.nil_append]
          rw [run?_ofMark? ts _ rfl rfl (by decide), run?_fieldChars hfields _ hclose,
            run?_ofMark? _ _ rfl rfl (by decide)]
          simp

theorem run?_itemChars {js : List Json} (hjs : ∀ j ∈ js, j.Readable) (ts : List Token)
    {rest : List Char} (hrest : EndsWord rest) :
    Scan.run? ⟨.between, ts⟩ (itemChars js ++ rest) =
      Scan.run? ⟨.between, (itemTokens (itemsSaid js)).reverse ++ ts⟩ rest := by
  match js with
  | [] => rfl
  | [j] => exact run?_chars (hjs j (List.mem_singleton_self j)) ts hrest
  | j :: j' :: js =>
      obtain ⟨hj, hjs⟩ := List.forall_mem_cons.1 hjs
      have hcomma : EndsWord (',' :: (itemChars (j' :: js) ++ rest)) := endsWord_cons _ rfl
      have hchars : itemChars (j :: j' :: js) ++ rest =
          j.chars ++ ',' :: (itemChars (j' :: js) ++ rest) := by simp [itemChars]
      have htokens : itemTokens (itemsSaid (j :: j' :: js)) =
          j.said.tokens ++ .comma :: itemTokens (itemsSaid (j' :: js)) := by
        simp [itemsSaid, itemTokens]
      rw [hchars, htokens, run?_chars hj ts hcomma, run?_ofMark? _ _ rfl rfl (by decide),
        run?_itemChars hjs _ hrest]
      simp

theorem run?_fieldChars {fields : List (String × Json)} (h : ∀ e ∈ fields, e.2.Readable)
    (ts : List Token) {rest : List Char} (hrest : EndsWord rest) :
    Scan.run? ⟨.between, ts⟩ (fieldChars fields ++ rest) =
      Scan.run? ⟨.between, (fieldTokens (fieldsSaid fields)).reverse ++ ts⟩ rest := by
  match fields with
  | [] => rfl
  | [(name, j)] =>
      have hj : j.Readable := h (name, j) (List.mem_singleton_self _)
      simp only [fieldChars, fieldsSaid, fieldTokens, List.cons_append, List.append_assoc]
      rw [run?_stringText, run?_ofMark? _ _ rfl rfl (by decide), run?_chars hj _ hrest]
      simp
  | (name, j) :: e :: fields =>
      obtain ⟨hj, hfields⟩ := List.forall_mem_cons.1 h
      have hcomma : EndsWord (',' :: (fieldChars (e :: fields) ++ rest)) := endsWord_cons _ rfl
      have hchars : fieldChars ((name, j) :: e :: fields) ++ rest =
          stringText name ++ ':' :: (j.chars ++ ',' :: (fieldChars (e :: fields) ++ rest)) := by
        simp [fieldChars]
      have htokens : fieldTokens (fieldsSaid ((name, j) :: e :: fields)) =
          .str (some name) :: .colon :: j.said.tokens ++
            .comma :: fieldTokens (fieldsSaid (e :: fields)) := by
        simp [fieldsSaid, fieldTokens]
      rw [hchars, htokens, run?_stringText, run?_ofMark? _ _ rfl rfl (by decide),
        run?_chars hj _ hcomma, run?_ofMark? _ _ rfl rfl (by decide),
        run?_fieldChars hfields _ hrest]
      simp

end

/-- The text of a value is scanned into the tokens of what it says. -/
theorem scan?_chars {j : Json} (hj : j.Readable) : scan? j.chars = some j.said.tokens := by
  have hrun := run?_chars hj [] endsWord_nil
  rw [List.append_nil, List.append_nil, Scan.run?_nil] at hrun
  rw [← List.reverse_reverse j.said.tokens]
  exact hrun

end Token

end Pitwall.Json
