import Pitwall.Proofs.Json.Reading
import Pitwall.Proofs.Json.Trees
import Pitwall.Proofs.Json.WholeNumbers

/-!
# Doubles — their texts are words

The text of a finite double is made of digits, a point, an exponent mark and signs, none of which
ends a word. So within a larger text it is read as it is where it stands alone:
**`Number.readable_of_parse`**.
-/

namespace Pitwall.Json

open Text

/-! ## Characters -/

/-- No character of a decimal ends a word. -/
theorem not_endsWord_style (d : Decimal) :
    ∀ c ∈ doubleStyle.text d, Token.endsWord c = false := by
  have hdigits (n : Nat) : ∀ c ∈ Nat.toDigits 10 n, Token.endsWord c = false :=
    fun c hc => Token.endsWord_of_isDigit (isDigit_of_mem_decimal hc)
  have hzeros (n : Nat) : ∀ c ∈ List.replicate n '0', Token.endsWord c = false := by
    intro c hc
    rw [List.eq_of_mem_replicate hc]
    rfl
  simp only [DecimalStyle.text]
  split
  · -- positional: a whole number, a point among the digits, or zeros behind a point
    split
    · simp only [List.forall_mem_append]
      exact ⟨⟨hdigits _, hzeros _⟩, Token.not_endsWord_of_all rfl⟩
    · split
      · simp only [List.forall_mem_append, List.forall_mem_cons]
        exact ⟨fun c hc => hdigits _ c (List.mem_of_mem_take hc), rfl,
          fun c hc => hdigits _ c (List.mem_of_mem_drop hc)⟩
      · simp only [List.forall_mem_append, List.forall_mem_cons, List.cons_append]
        exact ⟨rfl, rfl, hzeros _, hdigits _⟩
  · rw [List.forall_mem_append]
    constructor
    · have hmantissa := hdigits d.digits
      split
      · next first second rest heq =>
        rw [heq] at hmantissa
        simp only [List.forall_mem_cons] at hmantissa ⊢
        exact ⟨hmantissa.1, rfl, hmantissa.2⟩
      · exact hmantissa
    · split
      all_goals
        rw [List.forall_mem_append]
        exact ⟨Token.not_endsWord_of_all rfl, hdigits _⟩

theorem not_endsWord_doubleText {x : Binary64} (hx : x.isFinite = true) :
    ∀ c ∈ doubleText x, Token.endsWord c = false := by
  have hmagnitude : ∀ c ∈ (if x.magnitude = 0 then ['0', '.', '0']
      else doubleStyle.text x.shortest), Token.endsWord c = false := by
    split
    · exact Token.not_endsWord_of_all rfl
    · exact not_endsWord_style _
  simp only [doubleText, hx, Bool.not_true, Bool.false_eq_true, if_false]
  split
  · exact List.forall_mem_cons.2 ⟨rfl, hmagnitude⟩
  · exact hmagnitude

/-! ## Words -/

theorem Written.ofTokens?_singleton {t : Token} {n : Number}
    (h : ofTokens? [t] = some (.num (some n))) : t = .num (some n) := by
  cases t <;> cases h
  rfl

/-- **DOUBLES** say in any text what they say alone. -/
theorem Number.readable_of_parse {x : Binary64} (hx : x.isFinite = true) {n : Number}
    (h : parse (Json.num (.float x)).compact = some (.num n)) :
    (Number.float x).Readable ∧ (Number.float x).said = n := by
  obtain ⟨w, hread, hvalue⟩ := Option.bind_eq_some_iff.1 h
  rw [Written.value?_eq_num_iff.1 hvalue, compact, String.toList_ofList] at hread
  obtain ⟨ts, hscan, htree⟩ := Option.bind_eq_some_iff.1 hread
  have hword : ∀ c ∈ (Number.float x).text, Token.endsWord c = false := not_endsWord_doubleText hx
  have hne : (Number.float x).text ≠ [] := by
    intro hnil
    rw [chars, hnil] at hscan
    cases hscan
    cases htree
  rw [chars, Token.scan?_word hne hword] at hscan
  obtain ⟨t, ht, rfl⟩ := Option.map_eq_some_iff.1 hscan
  rw [Written.ofTokens?_singleton htree] at ht
  have hsaid : (Number.float x).said = n := said_of_ofWord? ht
  exact ⟨⟨hsaid ▸ ht, hword⟩, hsaid⟩

end Pitwall.Json
