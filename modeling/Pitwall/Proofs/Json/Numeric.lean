import Pitwall.Json.Written
import Pitwall.Proofs.Data.Lookup
import Pitwall.Proofs.Numeric.Number

/-!
# Numeric values — JSON texts cannot say NaN

A numeral stands for a whole number, or for a double that comes out of scaling by powers of ten.
None of these is zero or infinite, so a double that is read is a number: **`Numeral.numeric`**.
What is read from a text is built of such numbers alone: **`Written.numeric_of_read?`** for the tree
of the text and **`numeric_of_value?`** for what it means.
-/

namespace Pitwall

/-- What every step keeps holds at the end of the steps. -/
theorem foldlM_invariant {α β : Type} {f : β → α → Option β} {I : β → Prop} {l : List α}
    (step : ∀ b a c, a ∈ l → I b → f b a = some c → I c) {b c : β} (hb : I b)
    (h : l.foldlM f b = some c) : I c := by
  induction l generalizing b with
  | nil =>
      rw [← Option.some.inj h]
      exact hb
  | cons a l ih =>
      rw [List.foldlM_cons] at h
      obtain ⟨x, hx, hrest⟩ := Option.bind_eq_some_iff.1 h
      have hstep : I x := step b a x List.mem_cons_self hb hx
      exact ih (fun b a c ha => step b a c (List.mem_cons_of_mem _ ha)) hstep hrest

namespace Binary

variable {f : Format}

/-- No number has a greater magnitude than the infinities. -/
theorem IsNumber.magnitude_le (hf : 0 < f.precision) {x : Binary f} (hx : x.IsNumber) :
    x.magnitude ≤ f.topExponent * f.hidden := by
  by_cases hfin : x.exponentField < f.topExponent
  · exact Nat.le_of_lt ((Nat.div_lt_iff_lt_mul f.hidden_pos).1 hfin)
  · have hfraction : x.fraction = 0 := by
      refine Decidable.byContradiction fun hne => hx ?_
      rw [value, if_neg hfin, if_neg hne]
    have hfield : x.exponentField ≤ f.topExponent := x.exponentField_le hf
    have hparts : x.magnitude = f.hidden * x.exponentField + x.fraction :=
      (Nat.div_add_mod _ _).symm
    rw [hparts, hfraction, Nat.add_zero, Nat.mul_comm]
    exact Nat.mul_le_mul_right _ hfield

end Binary

namespace Json

/-! ## Numerals -/

/-- The number is whole or a double that is not NaN. -/
def Number.Numeric : Number → Prop
  | .int _ => True
  | .float x => x.IsNumber

namespace Numeral

theorem magnitude_powerOfTen_ne_zero (k : Nat) : (powerOfTen k).magnitude ≠ 0 := by
  have hunits : 0 < Nat.pow 10 k * Format.double.one / 1 := by
    rw [Nat.div_one]
    exact Nat.mul_pos (Nat.pow_pos (by decide)) Format.double.one_pos
  exact Nat.ne_of_gt (Binary.magnitude_ofRatio_pos (by decide) (by decide) _ hunits)

/-- The powers of ten up to `1e308` are doubles. -/
theorem isFinite_powerOfTen {k : Nat} (hk : k < 309) : (powerOfTen k).isFinite = true := by
  by_cases hlast : k = 308
  · -- the last one stands in the last binade, where rounding may still overflow
    rw [hlast]
    decide +kernel
  · have hbound : ∀ k < 308, Nat.pow 10 k < Nat.pow 2 1020 := by decide +kernel
    exact Binary.isFinite_ofNat (by decide) (hbound k (by omega)) (by decide)

theorem isNumber_mul_powerOfTen {x : Binary64} (hx : x.IsNumber) {k : Nat} (hk : k < 309) :
    (x * powerOfTen k).IsNumber :=
  Binary.isNumber_mul (by decide) hx (isFinite_powerOfTen hk) (magnitude_powerOfTen_ne_zero k)

theorem isNumber_div_powerOfTen {x : Binary64} (hx : x.IsNumber) {k : Nat} (hk : k < 309) :
    (x / powerOfTen k).IsNumber :=
  Binary.isNumber_div (by decide) hx (isFinite_powerOfTen hk) (magnitude_powerOfTen_ne_zero k)

/-- Scaling gives numbers. -/
theorem isNumber_scale? {significand : Nat} {exponent : Int} {x : Binary64}
    (h : scale? significand exponent = some x) : x.IsNumber := by
  have hstart : (Binary.ofNat significand : Binary64).IsNumber :=
    (Binary.hasSign_ofRatio (by decide) _ _ _).isNumber
  simp only [scale?] at h
  split at h
  · split at h
    · rw [← Option.some.inj h]
      exact hstart
    · split at h
      · cases h
      · split at h
        · rw [← Option.some.inj h]
          exact isNumber_mul_powerOfTen hstart (by omega)
        · cases h
  · split at h
    · rw [← Option.some.inj h]
      exact isNumber_div_powerOfTen hstart (by omega)
    · split at h
      · rw [← Option.some.inj h]
        exact isNumber_div_powerOfTen (isNumber_div_powerOfTen hstart (by decide)) (by omega)
      · rw [← Option.some.inj h]
        exact (Binary.hasSign_zero (by decide) _).isNumber

theorem isNumber_withSign (negative : Bool) {x : Binary64} (hx : x.IsNumber) :
    (withSign negative x).IsNumber := by
  rw [withSign]
  split
  · exact (Binary.hasSign_pack (by decide) _ (hx.magnitude_le (by decide))).isNumber
  · exact hx

/-- **NUMERALS ARE NUMERIC.** -/
theorem numeric {n : Numeral} {v : Number} (h : n.number? = some v) : v.Numeric := by
  simp only [number?] at h
  split at h
  · rw [← Option.some.inj h]
    trivial
  · obtain ⟨x, hx, rfl⟩ := Option.map_eq_some_iff.1 h
    exact isNumber_withSign _ (isNumber_scale? hx)

end Numeral

/-! ## Tokens -/

namespace Token

def Numeric : Token → Prop
  | .num n => ∀ v ∈ n, v.Numeric
  | _ => True

theorem numeric_ofMark? {c : Char} {t : Token} (h : ofMark? c = some t) : t.Numeric := by
  cases t with
  | num n =>
      -- no mark is a number
      simp only [ofMark?] at h
      repeat' split at h
      all_goals cases h
  | _ => trivial

theorem numeric_ofWord? {word : List Char} {t : Token} (h : ofWord? word = some t) :
    t.Numeric := by
  rw [ofWord?] at h
  split at h
  · rw [← Option.some.inj h]
    trivial
  · split at h
    · rw [← Option.some.inj h]
      trivial
    · split at h
      · rw [← Option.some.inj h]
        trivial
      · obtain ⟨n, -, rfl⟩ := Option.map_eq_some_iff.1 h
        exact fun v hv => Numeral.numeric hv

/-- The complete tokens are numeric. -/
def Scan.Numeric (s : Scan) : Prop := ∀ t ∈ s.tokens, t.Numeric

theorem Scan.numeric_between {tokens : List Token} (hs : ∀ t ∈ tokens, t.Numeric) (c : Char) :
    (Scan.between tokens c).Numeric := by
  rw [Scan.between]
  split
  · exact hs
  · split
    · exact hs
    · cases hmark : ofMark? c with
      | none => exact hs
      | some t => exact List.forall_mem_cons.2 ⟨numeric_ofMark? hmark, hs⟩

theorem Scan.numeric_step {s s' : Scan} {c : Char} (hs : s.Numeric) (h : s.step c = some s') :
    s'.Numeric := by
  obtain ⟨place, tokens⟩ := s
  cases place with
  | between =>
      rw [← Option.some.inj h]
      exact numeric_between hs c
  | word read =>
      simp only [step] at h
      split at h
      · obtain ⟨t, ht, rfl⟩ := Option.map_eq_some_iff.1 h
        exact numeric_between (List.forall_mem_cons.2 ⟨numeric_ofWord? ht, hs⟩) c
      · rw [← Option.some.inj h]
        exact hs
  | string read =>
      simp only [step] at h
      split at h
      · rw [← Option.some.inj h]
        exact List.forall_mem_cons.2 ⟨trivial, hs⟩
      · split at h
        · rw [← Option.some.inj h]
          exact hs
        · split at h
          · cases h
          · rw [← Option.some.inj h]
            exact hs
  | escape read =>
      simp only [step] at h
      split at h
      · rw [← Option.some.inj h]
        exact hs
      · obtain ⟨e, -, rfl⟩ := Option.map_eq_some_iff.1 h
        exact hs
  | unit read missing value =>
      simp only [step] at h
      obtain ⟨digit, -, rfl⟩ := Option.map_eq_some_iff.1 h
      split
      · exact hs
      · exact hs

/-- The tokens of a text are numeric. -/
theorem numeric_of_scan? {cs : List Char} {ts : List Token} (h : scan? cs = some ts) :
    ∀ t ∈ ts, t.Numeric := by
  obtain ⟨s, hs, hfinish⟩ := Option.bind_eq_some_iff.1 h
  have hstart : Scan.Numeric ⟨.between, []⟩ := List.forall_mem_nil _
  have hnum : s.Numeric :=
    foldlM_invariant (fun _ _ _ _ hs h => Scan.numeric_step hs h) hstart hs
  obtain ⟨place, tokens⟩ := s
  cases place with
  | between =>
      rw [← Option.some.inj hfinish]
      exact fun t ht => hnum t (List.mem_reverse.1 ht)
  | word read =>
      obtain ⟨last, hlast, rfl⟩ := Option.map_eq_some_iff.1 hfinish
      intro t ht
      rcases List.mem_cons.1 (List.mem_reverse.1 ht) with rfl | ht
      · exact numeric_ofWord? hlast
      · exact hnum t ht
  | string read => cases hfinish
  | escape read => cases hfinish
  | unit read missing value => cases hfinish

end Token

/-! ## Trees -/

namespace Written

/-- No number in the tree is NaN. -/
inductive Numeric : Written → Prop
  | null : Numeric .null
  | bool (b : Bool) : Numeric (.bool b)
  | num {n : Option Number} (h : ∀ v ∈ n, v.Numeric) : Numeric (.num n)
  | str (s : Option String) : Numeric (.str s)
  | arr {items : List Written} (h : ∀ w ∈ items, Numeric w) : Numeric (.arr items)
  | obj {fields : List (Option String × Written)} (h : ∀ e ∈ fields, Numeric e.2) :
      Numeric (.obj fields)

/-- What an open container holds is numeric. -/
def Open.Numeric : Open → Prop
  | .arr items => ∀ w ∈ items, w.Numeric
  | .obj fields _ => ∀ e ∈ fields, e.2.Numeric

/-- All that has been read is numeric. -/
def Stage.Numeric : Stage → Prop
  | .value above | .firstItem above | .firstField above => ∀ o ∈ above, o.Numeric
  | .items read above => (∀ w ∈ read, w.Numeric) ∧ ∀ o ∈ above, o.Numeric
  | .name read above | .colon read _ above | .fields read above =>
    (∀ e ∈ read, e.2.Numeric) ∧ ∀ o ∈ above, o.Numeric
  | .done v => v.Numeric

theorem numeric_complete {v : Written} (hv : v.Numeric) {above : List Open}
    (h : ∀ o ∈ above, o.Numeric) : (complete v above).Numeric := by
  cases above with
  | nil => exact hv
  | cons o above =>
      obtain ⟨ho, habove⟩ := List.forall_mem_cons.1 h
      cases o with
      | arr items => exact ⟨List.forall_mem_cons.2 ⟨hv, ho⟩, habove⟩
      | obj fields name => exact ⟨List.forall_mem_cons.2 ⟨hv, ho⟩, habove⟩

theorem numeric_start? {above : List Open} (h : ∀ o ∈ above, o.Numeric) {t : Token}
    (ht : t.Numeric) {s : Stage} (hs : start? above t = some s) : s.Numeric := by
  cases t <;> cases hs
  case openArr => exact h
  case openObj => exact h
  case null => exact numeric_complete .null h
  case bool b => exact numeric_complete (.bool b) h
  case num n => exact numeric_complete (.num ht) h
  case str s => exact numeric_complete (.str s) h

theorem Stage.numeric_step {s s' : Stage} (hs : s.Numeric) {t : Token} (ht : t.Numeric)
    (h : s.step t = some s') : s'.Numeric := by
  cases s with
  | value above => exact numeric_start? hs ht h
  | firstItem above =>
      -- any other token begins the first item, with the array open around it
      have hopen : ∀ o ∈ Open.arr [] :: above, o.Numeric :=
        List.forall_mem_cons.2 ⟨List.forall_mem_nil _, hs⟩
      cases t with
      | closeArr =>
          rw [← Option.some.inj h]
          exact numeric_complete (.arr (List.forall_mem_nil _)) hs
      | _ => exact numeric_start? hopen ht h
  | items read above =>
      cases t with
      | comma =>
          rw [← Option.some.inj h]
          exact List.forall_mem_cons.2 hs
      | closeArr =>
          rw [← Option.some.inj h]
          exact numeric_complete (.arr fun w hw => hs.1 w (List.mem_reverse.1 hw)) hs.2
      | _ => cases h
  | firstField above =>
      cases t with
      | closeObj =>
          rw [← Option.some.inj h]
          exact numeric_complete (.obj (List.forall_mem_nil _)) hs
      | str key =>
          rw [← Option.some.inj h]
          exact ⟨List.forall_mem_nil _, hs⟩
      | _ => cases h
  | name read above =>
      cases t with
      | str key =>
          rw [← Option.some.inj h]
          exact hs
      | _ => cases h
  | colon read key above =>
      cases t with
      | colon =>
          rw [← Option.some.inj h]
          exact List.forall_mem_cons.2 hs
      | _ => cases h
  | fields read above =>
      cases t with
      | comma =>
          rw [← Option.some.inj h]
          exact hs
      | closeObj =>
          rw [← Option.some.inj h]
          exact numeric_complete (.obj fun e he => hs.1 e (List.mem_reverse.1 he)) hs.2
      | _ => cases h
  | done v => cases h

/-- **THE TREE OF A TEXT IS NUMERIC.** -/
theorem numeric_of_read? {cs : List Char} {w : Written} (h : read? cs = some w) : w.Numeric := by
  obtain ⟨ts, hscan, htree⟩ := Option.bind_eq_some_iff.1 h
  have hts := Token.numeric_of_scan? hscan
  rw [ofTokens?] at htree
  split at htree
  · next v hfold =>
    have hstart : (Stage.value []).Numeric := List.forall_mem_nil _
    have hdone : (Stage.done v).Numeric :=
      foldlM_invariant (fun _ t _ ht hs h => Stage.numeric_step hs (hts t ht) h) hstart hfold
    rw [← Option.some.inj htree]
    exact hdone
  · cases htree

end Written

/-! ## Values -/

/-- No number in the value is NaN. -/
inductive Numeric : Json → Prop
  | null : Numeric .null
  | bool (b : Bool) : Numeric (.bool b)
  | num {n : Number} (h : n.Numeric) : Numeric (.num n)
  | str (s : String) : Numeric (.str s)
  | arr {items : List Json} (h : ∀ j ∈ items, Numeric j) : Numeric (.arr items)
  | obj {fields : List (String × Json)} (h : ∀ e ∈ fields, Numeric e.2) : Numeric (.obj fields)

/-- Sorting the fields of an object keeps them numeric. -/
theorem numeric_object {fields : List (String × Json)} (h : ∀ e ∈ fields, e.2.Numeric) :
    (object fields).Numeric := by
  refine .obj fun e he => h e ?_
  exact (Table.mem_foldl_insertEntry he).resolve_left List.not_mem_nil

namespace Written

mutual

/-- **VALUES OF NUMERIC TREES ARE NUMERIC.** -/
theorem numeric_of_value? {depth : Nat} {w : Written} {j : Json} (hw : w.Numeric)
    (h : w.value? depth = some j) : j.Numeric := by
  match w with
  | .null =>
      rw [value?] at h
      rw [← Option.some.inj h]
      exact .null
  | .bool b =>
      rw [value?] at h
      rw [← Option.some.inj h]
      exact .bool b
  | .num n =>
      rw [value?] at h
      obtain ⟨v, hv, rfl⟩ := Option.map_eq_some_iff.1 h
      cases hw with
      | num hn => exact .num (hn v hv)
  | .str s =>
      rw [value?] at h
      obtain ⟨v, -, rfl⟩ := Option.map_eq_some_iff.1 h
      exact .str v
  | .arr items =>
      cases hw with
      | arr hitems =>
          cases depth with
          | zero =>
              rw [value?] at h
              cases h
          | succ depth =>
              rw [value?] at h
              obtain ⟨js, hjs, rfl⟩ := Option.map_eq_some_iff.1 h
              exact .arr (numeric_of_values? hitems hjs)
  | .obj fields =>
      cases hw with
      | obj hfields =>
          cases depth with
          | zero =>
              rw [value?] at h
              cases h
          | succ depth =>
              rw [value?] at h
              obtain ⟨es, hes, rfl⟩ := Option.map_eq_some_iff.1 h
              exact numeric_object (numeric_of_fieldValues? hfields hes)

theorem numeric_of_values? {depth : Nat} {ws : List Written} {js : List Json}
    (hws : ∀ w ∈ ws, w.Numeric) (h : values? depth ws = some js) : ∀ j ∈ js, j.Numeric := by
  match ws with
  | [] =>
      rw [values?] at h
      rw [← Option.some.inj h]
      exact List.forall_mem_nil _
  | w :: ws =>
      rw [values?] at h
      obtain ⟨j, hj, hrest⟩ := Option.bind_eq_some_iff.1 h
      obtain ⟨js', hjs', hcons⟩ := Option.bind_eq_some_iff.1 hrest
      rw [← Option.some.inj hcons]
      obtain ⟨hw, hws'⟩ := List.forall_mem_cons.1 hws
      exact List.forall_mem_cons.2 ⟨numeric_of_value? hw hj, numeric_of_values? hws' hjs'⟩

theorem numeric_of_fieldValues? {depth : Nat} {fields : List (Option String × Written)}
    {es : List (String × Json)} (hfields : ∀ e ∈ fields, e.2.Numeric)
    (h : fieldValues? depth fields = some es) : ∀ e ∈ es, e.2.Numeric := by
  match fields with
  | [] =>
      rw [fieldValues?] at h
      rw [← Option.some.inj h]
      exact List.forall_mem_nil _
  | (name, w) :: fields =>
      rw [fieldValues?] at h
      obtain ⟨key, -, hvalue⟩ := Option.bind_eq_some_iff.1 h
      obtain ⟨j, hj, hrest⟩ := Option.bind_eq_some_iff.1 hvalue
      obtain ⟨es', hes', hcons⟩ := Option.bind_eq_some_iff.1 hrest
      rw [← Option.some.inj hcons]
      obtain ⟨hw, hfields'⟩ := List.forall_mem_cons.1 hfields
      exact List.forall_mem_cons.2 ⟨numeric_of_value? hw hj, numeric_of_fieldValues? hfields' hes'⟩

end

end Written

end Json

end Pitwall
