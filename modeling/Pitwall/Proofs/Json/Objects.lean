import Pitwall.Proofs.Json.Reading
import Pitwall.Proofs.Json.Trees

/-!
# Objects — put together from texts

What has been read before and what is still open do not matter to the reading of a value: a text
that is a value by itself is read as that value within any other text (**`Token.run?_scanned`** and
**`Written.run?_ofTokens`**). So an object is read from any texts of its names and values with marks
between them: **`Written.read?_objectText`**. In particular the lines that are printed for an object
are read as what they are printed from (**`Written.read?_prettyChars_obj`**).
-/

namespace Pitwall.Json

/-- The value is neither an array nor an object. -/
inductive IsAtom : Json → Prop
  | null : IsAtom .null
  | bool (b : Bool) : IsAtom (.bool b)
  | num (n : Number) : IsAtom (.num n)
  | str (s : String) : IsAtom (.str s)

/-! ## Within a text -/

namespace Token

/-- The same scan with more tokens before those that it has read. -/
def Scan.onto (s : Scan) (ts : List Token) : Scan := ⟨s.place, s.tokens ++ ts⟩

theorem Scan.between_onto (tokens ts : List Token) (c : Char) :
    Scan.between (tokens ++ ts) c = (Scan.between tokens c).onto ts := by
  rw [Scan.between, Scan.between]
  split
  · rfl
  · split
    · rfl
    · split <;> rfl

/-- **EARLIER TOKENS** do not matter to a step. -/
theorem Scan.step_onto (s : Scan) (ts : List Token) (c : Char) :
    (s.onto ts).step c = (s.step c).map (·.onto ts) := by
  obtain ⟨place, tokens⟩ := s
  cases place with
  | between => exact congrArg some (between_onto tokens ts c)
  | word read =>
      simp only [onto, step]
      split
      · cases ofWord? read.reverse with
        | none => rfl
        | some t => exact congrArg some (between_onto (t :: tokens) ts c)
      · rfl
  | string read =>
      simp only [onto, step]
      split
      · rfl
      · split
        · rfl
        · split <;> rfl
  | escape read =>
      simp only [onto, step]
      split
      · rfl
      · cases escaped? c <;> rfl
  | unit read missing value =>
      simp only [onto, step]
      cases hexDigit? c with
      | none => rfl
      | some digit =>
          simp only [Option.map_some]
          split <;> rfl

theorem Scan.foldlM_onto (s : Scan) (ts : List Token) (cs : List Char) :
    cs.foldlM Scan.step (s.onto ts) = (cs.foldlM Scan.step s).map (·.onto ts) := by
  induction cs generalizing s with
  | nil => rfl
  | cons c cs ih =>
      rw [List.foldlM_cons, List.foldlM_cons, step_onto]
      cases s.step c with
      | none => rfl
      | some s' => exact ih s'

/-- **A TEXT WITHIN ANOTHER ONE** is scanned into its own tokens, where its last word ends. -/
theorem run?_scanned {cs : List Char} {tokens : List Token} (h : scan? cs = some tokens)
    (ts : List Token) {rest : List Char} (hrest : EndsWord rest) :
    Scan.run? ⟨.between, ts⟩ (cs ++ rest) = Scan.run? ⟨.between, tokens.reverse ++ ts⟩ rest := by
  obtain ⟨⟨place, read⟩, hscan, hfinish⟩ := Option.bind_eq_some_iff.1 h
  have honto : cs.foldlM Scan.step ⟨.between, ts⟩ = some ⟨place, read ++ ts⟩ :=
    (Scan.foldlM_onto ⟨.between, []⟩ ts cs).trans (congrArg _ hscan)
  have hrun : Scan.run? ⟨.between, ts⟩ (cs ++ rest) = Scan.run? ⟨place, read ++ ts⟩ rest := by
    rw [Scan.run?, List.foldlM_append, honto]
    rfl
  rw [hrun]
  -- a text that is complete ends between two tokens or in a word, which `rest` ends as well
  cases place with
  | between =>
      rw [← Option.some.inj hfinish, List.reverse_reverse]
  | word word =>
      obtain ⟨t, ht, htokens⟩ := Option.map_eq_some_iff.1 hfinish
      rw [← htokens, List.reverse_reverse]
      exact run?_endWord _ _ ht hrest
  | string _ => cases hfinish
  | escape _ => cases hfinish
  | unit _ _ _ => cases hfinish

/-- Blanks in front are skipped. -/
theorem run?_blanks {blanks : List Char} (h : ∀ c ∈ blanks, isBlank c = true) (ts : List Token)
    (rest : List Char) :
    Scan.run? ⟨.between, ts⟩ (blanks ++ rest) = Scan.run? ⟨.between, ts⟩ rest := by
  induction blanks with
  | nil => rfl
  | cons c blanks ih =>
      obtain ⟨hc, hblanks⟩ := List.forall_mem_cons.1 h
      have hstep : Scan.step ⟨.between, ts⟩ c = some ⟨.between, ts⟩ := by
        simp only [Scan.step, Scan.between, hc, if_true]
      rw [List.cons_append, Scan.run?_of_step hstep, ih hblanks]

/-- **BLANKS AROUND** a text do not matter. -/
theorem scan?_blanks {front cs back : List Char} {tokens : List Token}
    (hfront : ∀ c ∈ front, isBlank c = true) (hback : ∀ c ∈ back, isBlank c = true)
    (h : scan? cs = some tokens) : scan? (front ++ cs ++ back) = some tokens := by
  have hend : EndsWord back := by
    intro c hc
    have hblank := hback c (List.mem_of_mem_head? hc)
    rw [endsWord, hblank]
    rfl
  have hnil := run?_blanks hback (tokens.reverse ++ []) []
  rw [List.append_nil, List.append_nil] at hnil
  show Scan.run? ⟨.between, []⟩ (front ++ cs ++ back) = some tokens
  rw [List.append_assoc, run?_blanks hfront, run?_scanned h [] hend, List.append_nil, hnil,
    Scan.run?_nil]
  exact congrArg some (List.reverse_reverse tokens)

end Token

namespace Written

/-- The same stage within containers that are open already. -/
def Stage.under (outer : List Open) : Stage → Stage
  | .value above => .value (above ++ outer)
  | .firstItem above => .firstItem (above ++ outer)
  | .items read above => .items read (above ++ outer)
  | .firstField above => .firstField (above ++ outer)
  | .name read above => .name read (above ++ outer)
  | .colon read key above => .colon read key (above ++ outer)
  | .fields read above => .fields read (above ++ outer)
  | .done v => complete v outer

theorem complete_under (v : Written) (above outer : List Open) :
    (complete v above).under outer = complete v (above ++ outer) := by
  cases above with
  | nil => rfl
  | cons o above => cases o <;> rfl

theorem start?_under (above outer : List Open) (t : Token) :
    start? (above ++ outer) t = (start? above t).map (Stage.under outer) := by
  cases t with
  | null => exact congrArg some (complete_under _ above outer).symm
  | bool b => exact congrArg some (complete_under _ above outer).symm
  | num n => exact congrArg some (complete_under _ above outer).symm
  | str s => exact congrArg some (complete_under _ above outer).symm
  | _ => rfl

/-- **OUTER CONTAINERS** do not matter to a step. -/
theorem Stage.step_under {s s' : Stage} {t : Token} (h : s.step t = some s')
    (outer : List Open) : (s.under outer).step t = some (s'.under outer) := by
  -- a step starts a value, completes one, or changes what comes next in the innermost container
  have hstart : ∀ above, start? above t = some s' →
      start? (above ++ outer) t = some (s'.under outer) := by
    intro above h
    rw [start?_under, h, Option.map_some]
  have hcomplete : ∀ v above, some (complete v above) = some s' →
      some (complete v (above ++ outer)) = some (s'.under outer) := by
    intro v above h
    rw [← complete_under, Option.some.inj h]
  cases s with
  | value above => exact hstart above h
  | firstItem above =>
      cases t with
      | closeArr => exact hcomplete _ above h
      | _ => exact hstart (.arr [] :: above) h
  | items read above =>
      cases t with
      | comma => cases h; rfl
      | closeArr => exact hcomplete _ above h
      | _ => cases h
  | firstField above =>
      cases t with
      | closeObj => exact hcomplete _ above h
      | str key => cases h; rfl
      | _ => cases h
  | name read above =>
      cases t with
      | str key => cases h; rfl
      | _ => cases h
  | colon read key above =>
      cases t with
      | colon => cases h; rfl
      | _ => cases h
  | fields read above =>
      cases t with
      | comma => cases h; rfl
      | closeObj => exact hcomplete _ above h
      | _ => cases h
  | done v => cases t <;> cases h

theorem Stage.run?_under {s s' : Stage} {ts : List Token} (h : s.run? ts = some s')
    (outer : List Open) : (s.under outer).run? ts = some (s'.under outer) := by
  induction ts generalizing s with
  | nil => exact congrArg (fun s => some (s.under outer)) (Option.some.inj h)
  | cons t ts ih =>
      obtain ⟨next, hstep, hrest⟩ := Option.bind_eq_some_iff.1 h
      rw [Stage.run?, List.foldlM_cons, step_under hstep]
      exact ih hrest

/-- **A VALUE WITHIN ANOTHER ONE** is built from its own tokens and handed to the container around
it. -/
theorem run?_ofTokens {ts : List Token} {w : Written} (h : ofTokens? ts = some w)
    (above : List Open) (rest : List Token) :
    (Stage.value above).run? (ts ++ rest) = (complete w above).run? rest := by
  have hdone : (Stage.value []).run? ts = some (.done w) := by
    rw [ofTokens?] at h
    split at h
    · next hrun => rw [Stage.run?, hrun, Option.some.inj h]
    · cases h
  have hrun : (Stage.value above).run? ts = some (complete w above) := Stage.run?_under hdone above
  rw [Stage.run?] at hrun
  rw [Stage.run?, List.foldlM_append, hrun]
  rfl

/-! ## Objects -/

/-- The rest of an object behind one of its fields, made of texts of names and values. -/
def moreText : List (List Char × List Char) → List Char
  | [] => ['\x7d']
  | entry :: entries => ',' :: (entry.1 ++ ':' :: entry.2 ++ moreText entries)

/-- An object made of texts of names and values. -/
def objectText : List (List Char × List Char) → List Char
  | [] => ['\x7b', '\x7d']
  | entry :: entries => '\x7b' :: (entry.1 ++ ':' :: entry.2 ++ moreText entries)

/-- The texts are those of the name and the value of a field, each with or without blanks around
it. -/
structure IsEntry (entry : List Char × List Char) (field : Option String × Written) : Prop where
  name : Token.scan? entry.1 = some [.str field.1]
  value : read? entry.2 = some field.2

/-- The tokens of a field behind its name, and what is built from them. -/
theorem IsEntry.exists_tokens {entry : List Char × List Char} {field : Option String × Written}
    (h : IsEntry entry field) : ∃ tokens : List Token,
      (∀ ts rest, Token.EndsWord rest →
        Token.Scan.run? ⟨.between, ts⟩ (entry.1 ++ ':' :: entry.2 ++ rest) =
          Token.Scan.run? ⟨.between, tokens.reverse ++ .str field.1 :: ts⟩ rest) ∧
      ∀ read above rest, (Stage.colon read field.1 above).run? (tokens ++ rest) =
        (Stage.fields (field :: read) above).run? rest := by
  obtain ⟨tokens, hscan, htree⟩ := Option.bind_eq_some_iff.1 h.value
  refine ⟨.colon :: tokens, fun ts rest hrest => ?_, fun read above rest => ?_⟩
  · have hcolon : Token.EndsWord (':' :: (entry.2 ++ rest)) := Token.endsWord_cons _ rfl
    rw [List.append_assoc, List.cons_append, Token.run?_scanned h.name ts hcolon,
      Token.run?_ofMark? _ _ rfl rfl (by decide), Token.run?_scanned hscan _ hrest]
    simp
  · exact run?_ofTokens htree (.obj read field.1 :: above) rest

theorem endsWord_moreText (entries : List (List Char × List Char)) :
    Token.EndsWord (moreText entries) := by
  cases entries <;> exact Token.endsWord_cons _ rfl

/-- The rest of an object is read field by field. -/
theorem exists_moreTokens {entries : List (List Char × List Char)}
    {fields : List (Option String × Written)} (h : List.Forall₂ IsEntry entries fields) :
    ∃ tokens : List Token,
      (∀ ts, Token.Scan.run? ⟨.between, ts⟩ (moreText entries) = some (ts.reverse ++ tokens)) ∧
      ∀ read, (Stage.fields read []).run? tokens =
        some (.done (.obj (read.reverse ++ fields))) := by
  induction h with
  | nil =>
      refine ⟨[.closeObj], fun ts => ?_, fun read => ?_⟩
      · rw [moreText, Token.run?_ofMark? ts [] rfl rfl (by decide)]
        simp [Token.Scan.run?_nil, Token.Scan.finish]
      · rw [List.append_nil]
        rfl
  | @cons entry field entries fields hentry _ ih =>
      obtain ⟨tokens, hscan, hbuild⟩ := hentry.exists_tokens
      obtain ⟨more, hmore, hrest⟩ := ih
      refine ⟨.comma :: .str field.1 :: (tokens ++ more), fun ts => ?_, fun read => ?_⟩
      · rw [moreText, Token.run?_ofMark? ts _ rfl rfl (by decide),
          hscan _ _ (endsWord_moreText entries), hmore]
        simp
      · have hfields : (field :: read).reverse ++ fields = read.reverse ++ field :: fields := by
          simp
        rw [← hfields, ← hrest]
        exact hbuild read [] more

/-- **OBJECTS** are read from texts of their names and values. -/
theorem read?_objectText {entries : List (List Char × List Char)}
    {fields : List (Option String × Written)} (h : List.Forall₂ IsEntry entries fields) :
    read? (objectText entries) = some (.obj fields) := by
  cases h with
  | nil => rfl
  | @cons entry field entries fields hentry hentries =>
      obtain ⟨tokens, hscan, hbuild⟩ := hentry.exists_tokens
      obtain ⟨more, hmore, hrest⟩ := exists_moreTokens hentries
      have htokens : Token.scan? (objectText (entry :: entries)) =
          some (.openObj :: .str field.1 :: (tokens ++ more)) := by
        show Token.Scan.run? ⟨.between, []⟩ (objectText (entry :: entries)) = _
        rw [objectText, Token.run?_ofMark? [] _ rfl rfl (by decide),
          hscan _ _ (endsWord_moreText entries), hmore]
        simp
      have hrun : (Stage.colon [] field.1 []).run? (tokens ++ more) =
          some (.done (.obj (field :: fields))) := (hbuild [] [] more).trans (hrest [field])
      have htree : (Stage.value []).run? (.openObj :: .str field.1 :: (tokens ++ more)) =
          some (.done (.obj (field :: fields))) := hrun
      rw [Stage.run?] at htree
      rw [read?, htokens, Option.bind_eq_bind, Option.bind_some, ofTokens?, htree]

/-! ## Printed objects -/

/-- Blanks around a value do not matter. -/
theorem read?_blanks {front cs back : List Char} {w : Written}
    (hfront : ∀ c ∈ front, Token.isBlank c = true) (hback : ∀ c ∈ back, Token.isBlank c = true)
    (h : read? cs = some w) : read? (front ++ cs ++ back) = some w := by
  obtain ⟨tokens, hscan, htree⟩ := Option.bind_eq_some_iff.1 h
  rw [read?, Token.scan?_blanks hfront hback hscan]
  exact htree

theorem isBlank_newLine (depth : Nat) : ∀ c ∈ newLine depth, Token.isBlank c = true := by
  intro c h
  rcases List.mem_cons.1 h with rfl | h
  · rfl
  · rw [List.eq_of_mem_replicate h]
    rfl

/-- The texts that a field is printed as, up to a comma or the end. -/
theorem isEntry_printed {name : String} {j : Json} {depth : Nat}
    (h : read? (j.prettyChars depth) = some (ofJson j)) {back : List Char}
    (hback : ∀ c ∈ back, Token.isBlank c = true) :
    IsEntry (newLine depth ++ stringText name, ' ' :: j.prettyChars depth ++ back)
      (some name, ofJson j) where
  name := by
    have hscan : Token.scan? (stringText name) = some [.str (some name)] := by
      have hrun := Token.run?_stringText [] [] name
      rw [List.append_nil] at hrun
      exact hrun
    have hblanks := Token.scan?_blanks (isBlank_newLine depth) (List.forall_mem_nil _) hscan
    rwa [List.append_nil] at hblanks
  value := by
    have hspace : ∀ c ∈ [' '], Token.isBlank c = true := by simp [Token.isBlank]
    exact read?_blanks hspace hback h

/-- The lines of an object are those of its fields. -/
theorem exists_entries_prettyFields {depth : Nat} (e : String × Json) (es : List (String × Json))
    (h : ∀ f ∈ e :: es, read? (f.2.prettyChars (depth + 1)) = some (ofJson f.2)) :
    ∃ entry entries, newLine (depth + 1) ++ prettyFields (depth + 1) (e :: es) ++ newLine depth ++
        ['\x7d'] = entry.1 ++ ':' :: entry.2 ++ moreText entries ∧
      List.Forall₂ IsEntry (entry :: entries) (ofFields (e :: es)) := by
  obtain ⟨he, hes⟩ := List.forall_mem_cons.1 h
  induction es generalizing e with
  | nil =>
      refine ⟨_, [], ?_, .cons (isEntry_printed he (isBlank_newLine depth)) .nil⟩
      simp [prettyFields, moreText]
  | cons e' es ih =>
      obtain ⟨he', hes'⟩ := List.forall_mem_cons.1 hes
      obtain ⟨entry, entries, htext, hentries⟩ := ih e' hes he' hes'
      refine ⟨_, entry :: entries, ?_,
        .cons (isEntry_printed he (List.forall_mem_nil _)) hentries⟩
      rw [moreText, ← htext]
      simp [prettyFields]

/-- **PRINTED OBJECTS** are read as what they are printed from, if what stands in them is. -/
theorem read?_prettyChars_obj {depth : Nat} {fields : List (String × Json)}
    (h : ∀ f ∈ fields, read? (f.2.prettyChars (depth + 1)) = some (ofJson f.2)) :
    read? ((Json.obj fields).prettyChars depth) = some (ofJson (.obj fields)) := by
  cases fields with
  | nil => rfl
  | cons e es =>
      obtain ⟨entry, entries, htext, hentries⟩ := exists_entries_prettyFields e es h
      have hobject : (Json.obj (e :: es)).prettyChars depth = objectText (entry :: entries) := by
        have hlines : (Json.obj (e :: es)).prettyChars depth =
            '\x7b' :: (newLine (depth + 1) ++ prettyFields (depth + 1) (e :: es) ++
              newLine depth ++ ['\x7d']) := by simp [prettyChars]
        rw [hlines, htext, objectText]
      rw [hobject, ofJson]
      exact read?_objectText hentries

/-- A value without parts is read from its one line. -/
theorem read?_prettyChars_atom {j : Json} (hj : j.Legible) (hatom : j.IsAtom) (depth : Nat) :
    read? (j.prettyChars depth) = some (ofJson j) := by
  have hline : j.prettyChars depth = j.chars := by
    cases hatom with
    | bool b => cases b <;> rfl
    | _ => rfl
  rw [hline, read?_chars hj]

end Written

end Pitwall.Json
