import Mathlib.Data.List.TakeWhile
import Pitwall.Display.Weather
import Pitwall.Proofs.Text.Words

/-!
# Weather names — cut in front of the first parameter

A weather name is cut word by word, but what is left can be told from the text alone: all of it, if
no parameter mark occurs, and else what stands in front of the last underscore before the first mark
(**`Weather.Cut`**). There is no mark in what is left, so nothing is cut off it again:
**`Weather.name_by_first_mark`**.
-/

namespace Pitwall.Weather

open Text

variable {cs front kept word rest : List Char}

/-! ## The first mark -/

/-- The first parameter mark of the text stands right behind these characters. -/
def FirstMark (front cs : List Char) : Prop :=
  front ++ parameterMark <+: cs ∧
    ∀ front', front' ++ parameterMark <+: cs → front.length ≤ front'.length

/-- What is left of a weather name. -/
inductive Cut : List Char → List Char → Prop where
  /-- Where no parameter mark occurs, nothing is cut off. -/
  | whole {cs : List Char} : ¬ parameterMark <:+: cs → Cut cs cs
  /-- The last underscore before the first mark is where the name ends. -/
  | inFront {cs kept word : List Char} : '_' ∉ word → FirstMark (kept ++ '_' :: word) cs →
    Cut cs kept
  /-- Without an underscore before the first mark nothing is left. -/
  | nothing {cs word : List Char} : '_' ∉ word → FirstMark word cs → Cut cs []

/-- A mark that occurs does so for a first time. -/
theorem exists_firstMark (h : parameterMark <:+: cs) : ∃ front, FirstMark front cs := by
  induction cs with
  | nil => exact absurd (List.infix_nil.1 h) (List.cons_ne_nil _ _)
  | cons c cs ih =>
      by_cases hhere : parameterMark <+: c :: cs
      · exact ⟨[], hhere, fun front' _ => Nat.zero_le front'.length⟩
      · obtain ⟨front, hfront, hfirst⟩ := ih ((List.infix_cons_iff.1 h).resolve_left hhere)
        refine ⟨c :: front, List.cons_prefix_cons.2 ⟨rfl, hfront⟩, fun front' hfront' => ?_⟩
        cases front' with
        | nil => exact absurd hfront' hhere
        | cons d front' =>
            have hrest : front' ++ parameterMark <+: cs := (List.cons_prefix_cons.1 hfront').2
            exact Nat.succ_le_succ (hfirst front' hrest)

/-- No mark lies before the first one. -/
theorem FirstMark.unmarked (h : FirstMark front cs) (hkept : kept <+: front) :
    ¬ parameterMark <:+: kept := by
  rintro ⟨before, behind, rfl⟩
  have hmark : before ++ parameterMark <+: front :=
    (List.prefix_append (before ++ parameterMark) behind).trans hkept
  have hcs : before ++ parameterMark <+: cs :=
    hmark.trans ((List.prefix_append front parameterMark).trans h.1)
  have hle : front.length ≤ before.length := h.2 before hcs
  have hlong : (before ++ parameterMark).length ≤ front.length := hmark.length_le
  have hpos : 0 < parameterMark.length := by decide
  rw [List.length_append] at hlong
  omega

/-! ## Cutting -/

/-- Without a mark in the text there is none in its words. -/
theorem not_occursIn_of_mem_splitAt (h : ¬ parameterMark <:+: cs) :
    ∀ word ∈ splitAt (· == '_') cs, (!occursIn parameterMark word) = true := by
  intro word hword
  rw [Bool.not_eq_true', ← Bool.not_eq_true, occursIn_iff]
  exact fun hmark => h (hmark.trans (infix_of_mem_splitAt hword))

theorem nameChars_of_unmarked (h : ¬ parameterMark <:+: cs) : nameChars cs = cs := by
  rw [nameChars, List.takeWhile_eq_self_iff.2 (not_occursIn_of_mem_splitAt h), join_splitAt]

/-- The word that holds the mark ends what is taken. -/
theorem takeWhile_of_marked (hword : '_' ∉ word) (h : word ++ parameterMark <+: cs) :
    (splitAt (· == '_') cs).takeWhile (fun word => !occursIn parameterMark word) = [] := by
  obtain ⟨rest, rfl⟩ := h
  have hnone : ∀ c ∈ word ++ parameterMark, (c == '_') = false := by
    intro c hc
    refine beq_eq_false_iff_ne.2 ?_
    rintro rfl
    rcases List.mem_append.1 hc with hc | hc
    · exact hword hc
    · exact absurd hc (by decide)
  obtain ⟨piece, pieces, hpieces⟩ := splitAt_append_of_not_mark hnone rest
  have hmark : occursIn parameterMark (word ++ parameterMark ++ piece) = true :=
    occursIn_iff.2 ⟨word, piece, rfl⟩
  rw [hpieces, List.takeWhile_cons_of_neg (by rw [hmark]; decide)]

/-- **WHAT IS LEFT** is what the text tells to be left. -/
theorem Cut.nameChars_eq (h : Cut cs kept) : nameChars cs = kept := by
  cases h with
  | whole hnone => exact nameChars_of_unmarked hnone
  | nothing hword hfirst => rw [nameChars, takeWhile_of_marked hword hfirst.1, join]
  | @inFront _ word hword hfirst =>
      have hkept : ¬ parameterMark <:+: kept := hfirst.unmarked (List.prefix_append _ _)
      obtain ⟨rest, hrest⟩ := hfirst.1
      have hcs : cs = kept ++ '_' :: (word ++ parameterMark ++ rest) := by
        rw [← hrest]
        simp
      rw [nameChars, hcs, splitAt_append_cons kept rfl,
        List.takeWhile_append_of_pos (not_occursIn_of_mem_splitAt hkept),
        takeWhile_of_marked hword (List.prefix_append _ rest), List.append_nil, join_splitAt]

theorem cut_nameChars (cs : List Char) : Cut cs (nameChars cs) := by
  suffices h : ∃ kept, Cut cs kept by
    obtain ⟨kept, hkept⟩ := h
    rwa [hkept.nameChars_eq]
  by_cases hmark : parameterMark <:+: cs
  · obtain ⟨front, hfirst⟩ := exists_firstMark hmark
    by_cases hunderscore : '_' ∈ front
    · obtain ⟨kept, word, rfl, hword⟩ := exists_last_of_mem hunderscore
      exact ⟨kept, .inFront hword hfirst⟩
    · exact ⟨[], .nothing hunderscore hfirst⟩
  · exact ⟨cs, .whole hmark⟩

theorem Cut.unmarked (h : Cut cs kept) : ¬ parameterMark <:+: kept := by
  cases h with
  | whole hnone => exact hnone
  | inFront _ hfirst => exact hfirst.unmarked (List.prefix_append _ _)
  | nothing _ hfirst => exact hfirst.unmarked List.nil_prefix

/-- **WEATHER NAMES BY THE FIRST MARK**: what is left of a weather name is all of it where no
parameter mark occurs, and else what stands in front of the last underscore before the first mark,
which is nothing if there is no such underscore. No mark is left, and of what is left nothing more
is cut off. -/
theorem name_by_first_mark (weather : String) :
    (∀ kept, name weather = kept ↔ Cut weather.toList kept.toList) ∧
      ¬ parameterMark <:+: (name weather).toList ∧ name (name weather) = name weather := by
  have hname : (name weather).toList = nameChars weather.toList := String.toList_ofList
  have hcut : Cut weather.toList (name weather).toList := by
    rw [hname]
    exact cut_nameChars weather.toList
  refine ⟨fun kept => ⟨?left, ?right⟩, hcut.unmarked, ?again⟩
  case left =>
    rintro rfl
    exact hcut
  case right =>
    intro hkept
    rw [← String.toList_inj, hname, hkept.nameChars_eq]
  case again =>
    rw [← String.toList_inj]
    exact String.toList_ofList.trans (nameChars_of_unmarked hcut.unmarked)

/-- Doubled underscores stay, and a mark in the first word leaves nothing. -/
example : name "_a__b_c=1type=2_d" = "_a__b" ∧ name "type=3_a" = "" := by decide +kernel

end Pitwall.Weather
