import Pitwall.Numeric.Binary

/-!
# Numbers — what keeps floating-point words from being NaN

Rounding never gives NaN, and what it gives has the sign it was asked for:
**`Binary.hasSign_ofRatio`**. So arithmetic on numbers gives a number as long as no infinity meets
its opposite or a zero; sums of squares and their roots never get there.
-/

namespace Pitwall

namespace Format

theorem hidden_pos (f : Format) : 0 < f.hidden := Nat.pow_pos (by decide)

theorem one_pos (f : Format) : 0 < f.one := Nat.pow_pos (by decide)

theorem pow_pred {n : Nat} (h : 0 < n) : Nat.pow 2 n = 2 * Nat.pow 2 (n - 1) := by
  obtain ⟨m, rfl⟩ := Nat.exists_eq_add_one_of_ne_zero (Nat.ne_of_gt h)
  show 2 ^ (m + 1) = 2 * 2 ^ (m + 1 - 1)
  rw [Nat.pow_succ, Nat.add_sub_cancel, Nat.mul_comm]

/-- Half of the words have no sign. -/
theorem pow_width (f : Format) (hf : 0 < f.precision) :
    Nat.pow 2 f.width = 2 * Nat.pow 2 (f.width - 1) :=
  pow_pred (Nat.add_pos_right _ hf)

/-- Below the sign stand the exponent field and the fraction. -/
theorem pow_width_pred (f : Format) (hf : 0 < f.precision) :
    Nat.pow 2 (f.width - 1) = Nat.pow 2 f.exponentWidth * f.hidden := by
  have hwidth : f.width - 1 = f.exponentWidth + (f.precision - 1) := by
    rw [width]
    omega
  rw [hwidth]
  exact Nat.pow_add 2 _ _

/-- Infinity fits into a word below the sign. -/
theorem top_lt (f : Format) (hf : 0 < f.precision) :
    f.topExponent * f.hidden < Nat.pow 2 (f.width - 1) := by
  have htop : f.topExponent < Nat.pow 2 f.exponentWidth :=
    Nat.sub_lt (Nat.pow_pos (by decide)) (by decide)
  rw [f.pow_width_pred hf]
  exact Nat.mul_lt_mul_of_pos_right htop f.hidden_pos

end Format

theorem le_roundDiv (num den : Nat) : num / den ≤ roundDiv num den := by
  simp only [roundDiv]
  split
  · exact Nat.le_refl _
  · split <;> omega

theorem roundDiv_le (num den : Nat) : roundDiv num den ≤ num / den + 1 := by
  simp only [roundDiv]
  split
  · omega
  · split
    · exact Nat.le_refl _
    · omega

namespace Binary

variable {f g : Format}

/-- The word is a number, finite or not. -/
def IsNumber (x : Binary f) : Prop := x.value ≠ .nan

instance (x : Binary f) : Decidable x.IsNumber := inferInstanceAs (Decidable (_ ≠ _))

/-- The word is a number with the given sign. -/
def HasSign (x : Binary f) (negative : Bool) : Prop :=
  (∃ units, x.value = .finite negative units) ∨ x.value = .infinite negative

theorem HasSign.isNumber {x : Binary f} {s : Bool} (h : x.HasSign s) : x.IsNumber := by
  intro hnan
  rcases h with ⟨n, h⟩ | h <;> rw [hnan] at h <;> cases h

/-- An exponent field has no more bits than all ones. -/
theorem exponentField_le (hf : 0 < f.precision) (x : Binary f) :
    x.exponentField ≤ f.topExponent := by
  have hmag : x.magnitude < Nat.pow 2 (f.width - 1) := Nat.mod_lt _ (Nat.pow_pos (by decide))
  rw [f.pow_width_pred hf] at hmag
  have hlt : x.exponentField < Nat.pow 2 f.exponentWidth :=
    (Nat.div_lt_iff_lt_mul f.hidden_pos).2 hmag
  rw [Format.topExponent]
  omega

/-- A number equals itself, and nothing else does. -/
theorem beq_self_iff (x : Binary f) : (x == x) = true ↔ x.IsNumber := by
  show (x.order? x == some .eq) = true ↔ x.value ≠ .nan
  rw [order?]
  cases hx : x.value with
  | finite s n => simp
  | infinite s => simp
  | nan => simp

/-! ## Packing -/

theorem toBits_pack (hf : 0 < f.precision) (s : Bool) {m : Nat}
    (hm : m < Nat.pow 2 (f.width - 1)) :
    (pack s m : Binary f).toBits = (if s then Nat.pow 2 (f.width - 1) else 0) + m := by
  have hwidth := f.pow_width hf
  show (BitVec.ofNat f.width _).toNat = _
  rw [BitVec.toNat_ofNat]
  refine Nat.mod_eq_of_lt ?_
  show _ < Nat.pow 2 f.width
  split <;> omega

theorem magnitude_pack (hf : 0 < f.precision) (s : Bool) {m : Nat}
    (hm : m < Nat.pow 2 (f.width - 1)) : (pack s m : Binary f).magnitude = m := by
  rw [magnitude, toBits_pack hf s hm]
  cases s with
  | false => rw [if_neg (by decide), Nat.zero_add, Nat.mod_eq_of_lt hm]
  | true => rw [if_pos rfl, Nat.add_mod_left, Nat.mod_eq_of_lt hm]

theorem negative_pack (hf : 0 < f.precision) (s : Bool) {m : Nat}
    (hm : m < Nat.pow 2 (f.width - 1)) : (pack s m : Binary f).negative = s := by
  rw [negative, BitVec.msb_eq_decide]
  show decide (Nat.pow 2 (f.width - 1) ≤ (pack s m : Binary f).toBits) = s
  rw [toBits_pack hf s hm]
  cases s with
  | false =>
      rw [if_neg (by decide)]
      exact decide_eq_false (by omega)
  | true =>
      rw [if_pos rfl]
      exact decide_eq_true (by omega)

/-- A magnitude up to that of infinity is one of a number. -/
theorem hasSign_pack (hf : 0 < f.precision) (s : Bool) {m : Nat}
    (hm : m ≤ f.topExponent * f.hidden) : (pack s m : Binary f).HasSign s := by
  have hlt : m < Nat.pow 2 (f.width - 1) := Nat.lt_of_le_of_lt hm (f.top_lt hf)
  have hneg := negative_pack hf s hlt
  have hmag := magnitude_pack hf s hlt
  by_cases htop : m / f.hidden < f.topExponent
  · have hfield : (pack s m : Binary f).exponentField < f.topExponent := by
      rw [exponentField, hmag]
      exact htop
    refine Or.inl ⟨(pack s m : Binary f).units, ?_⟩
    rw [value, if_pos hfield, hneg]
  · have hfield : ¬ (pack s m : Binary f).exponentField < f.topExponent := by
      rw [exponentField, hmag]
      exact htop
    -- nothing but infinity has such an exponent
    have heq : m = f.topExponent * f.hidden := by
      have hge : f.topExponent * f.hidden ≤ m :=
        (Nat.le_div_iff_mul_le f.hidden_pos).1 (Nat.le_of_not_lt htop)
      omega
    have hfraction : (pack s m : Binary f).fraction = 0 := by
      rw [fraction, hmag, heq]
      exact Nat.mul_mod_left _ _
    refine Or.inr ?_
    rw [value, if_neg hfield, if_pos hfraction, hneg]

theorem hasSign_zero (hf : 0 < f.precision) (s : Bool) : (zero s : Binary f).HasSign s :=
  hasSign_pack hf s (Nat.zero_le _)

theorem isNumber_default (hf : 0 < f.precision) : (default : Binary f).IsNumber :=
  (hasSign_zero hf false).isNumber

theorem hasSign_infinity (hf : 0 < f.precision) (s : Bool) : (infinity s : Binary f).HasSign s :=
  hasSign_pack hf s (Nat.le_refl _)

/-- **ROUNDING GIVES NUMBERS** with the sign that is asked for. -/
theorem hasSign_ofRatio (hf : 0 < f.precision) (s : Bool) (num den : Nat) :
    (ofRatio s num den : Binary f).HasSign s :=
  hasSign_pack hf s (Nat.min_le_right _ _)

/-- Bits of the whole part of a quotient that rounding drops. -/
def dropped (f : Format) (num den : Nat) : Nat := (num / den).log2 + 1 - f.precision

theorem magnitude_ofRatio (hf : 0 < f.precision) (s : Bool) (num den : Nat) :
    (ofRatio s num den : Binary f).magnitude =
      min (dropped f num den * f.hidden + roundDiv num (den * Nat.pow 2 (dropped f num den)))
        (f.topExponent * f.hidden) :=
  magnitude_pack hf s (Nat.lt_of_le_of_lt (Nat.min_le_right _ _) (f.top_lt hf))

/-- What is at least one unit does not vanish in rounding. -/
theorem magnitude_ofRatio_pos (hf : 0 < f.precision) (htop : 0 < f.topExponent) (s : Bool)
    {num den : Nat} (h : 0 < num / den) : 0 < (ofRatio s num den : Binary f).magnitude := by
  have hcap : 0 < f.topExponent * f.hidden := Nat.mul_pos htop f.hidden_pos
  have hrounded : 0 < dropped f num den * f.hidden +
      roundDiv num (den * Nat.pow 2 (dropped f num den)) := by
    rcases Nat.eq_zero_or_pos (dropped f num den) with hzero | hdropped
    · rw [hzero]
      show 0 < 0 * f.hidden + roundDiv num (den * 1)
      rw [Nat.zero_mul, Nat.zero_add, Nat.mul_one]
      exact Nat.lt_of_lt_of_le h (le_roundDiv num den)
    · exact Nat.add_pos_left (Nat.mul_pos hdropped f.hidden_pos) _
  rw [magnitude_ofRatio hf]
  exact Nat.lt_min.2 ⟨hrounded, hcap⟩

/-- What stays two binades below the infinities is finite after rounding. -/
theorem isFinite_ofRatio (hf : 0 < f.precision) (s : Bool) {num den : Nat}
    (h : dropped f num den + 2 < f.topExponent) : (ofRatio s num den : Binary f).isFinite = true := by
  have hquotient : num / (den * Nat.pow 2 (dropped f num den)) < 2 * f.hidden := by
    have hlog : num / den < Nat.pow 2 ((num / den).log2 + 1) := Nat.lt_log2_self
    have hwidth : (num / den).log2 + 1 ≤ dropped f num den + f.precision := by
      rw [dropped]
      omega
    have hpow : Nat.pow 2 (dropped f num den + f.precision) =
        2 * f.hidden * Nat.pow 2 (dropped f num den) := by
      have hsplit : Nat.pow 2 f.precision = 2 * f.hidden := Format.pow_pred hf
      rw [← hsplit, Nat.mul_comm]
      exact Nat.pow_add 2 _ _
    rw [← Nat.div_div_eq_div_mul]
    refine Nat.div_lt_of_lt_mul ?_
    rw [Nat.mul_comm, ← hpow]
    exact Nat.lt_of_lt_of_le hlog (Nat.pow_le_pow_right (by decide) hwidth)
  have hrounded := roundDiv_le num (den * Nat.pow 2 (dropped f num den))
  have hmag : (ofRatio s num den : Binary f).magnitude < f.topExponent * f.hidden := by
    have hlt : (dropped f num den + 2) * f.hidden < f.topExponent * f.hidden :=
      Nat.mul_lt_mul_of_pos_right h f.hidden_pos
    rw [Nat.add_mul] at hlt
    rw [magnitude_ofRatio hf]
    exact Nat.lt_of_le_of_lt (Nat.min_le_left _ _) (by omega)
  exact decide_eq_true ((Nat.div_lt_iff_lt_mul f.hidden_pos).2 hmag)

/-- Whole numbers far enough below the infinities are finite words. -/
theorem isFinite_ofNat (hf : 0 < f.precision) {n e : Nat} (hn : n < Nat.pow 2 e)
    (he : e + f.scale + 1 - f.precision + 2 < f.topExponent) : (ofNat n : Binary f).isFinite = true := by
  have hunits : n * f.one / 1 < Nat.pow 2 (e + f.scale) := by
    have hpow : Nat.pow 2 (e + f.scale) = Nat.pow 2 e * f.one := Nat.pow_add 2 _ _
    rw [Nat.div_one, hpow]
    exact Nat.mul_lt_mul_of_pos_right hn f.one_pos
  have hlog : (n * f.one / 1).log2 + 1 ≤ e + f.scale + 1 := by
    by_cases hzero : n * f.one / 1 = 0
    · rw [hzero]
      exact Nat.succ_le_succ (Nat.zero_le _)
    · exact Nat.succ_le_succ (Nat.le_of_lt ((Nat.log2_lt hzero).2 hunits))
  refine isFinite_ofRatio hf false ?_
  rw [dropped]
  omega

theorem isNumber_ofInt (hf : 0 < f.precision) (n : Int) : (ofInt n : Binary f).IsNumber :=
  (hasSign_ofRatio hf _ _ _).isNumber

/-- Conversion keeps numbers numbers. -/
theorem isNumber_convert (hg : 0 < g.precision) {x : Binary f} (hx : x.IsNumber) :
    (x.convert : Binary g).IsNumber := by
  rw [convert]
  cases h : x.value with
  | finite s n => exact (hasSign_ofRatio hg s _ _).isNumber
  | infinite s => exact (hasSign_infinity hg s).isNumber
  | nan => exact absurd h hx

/-! ## Arithmetic -/

/-- A square is a number without a sign. -/
theorem hasSign_mul_self (hf : 0 < f.precision) {x : Binary f} (hx : x.IsNumber) :
    (x * x).HasSign false := by
  show (mul x x).HasSign false
  rw [mul]
  cases h : x.value with
  | finite s n =>
      have hs : (s != s) = false := by simp
      simp only [hs]
      exact hasSign_ofRatio hf false _ _
  | infinite s =>
      have hs : (s != s) = false := by simp
      simp only [hs]
      exact hasSign_infinity hf false
  | nan => exact absurd h hx

/-- So is the sum of two such numbers. -/
theorem HasSign.add (hf : 0 < f.precision) {x y : Binary f} (hx : x.HasSign false)
    (hy : y.HasSign false) : (x + y).HasSign false := by
  show (Binary.add x y).HasSign false
  rw [Binary.add]
  rcases hx with ⟨m, hx⟩ | hx <;> rcases hy with ⟨n, hy⟩ | hy <;> simp only [hx, hy]
  · split
    · exact hasSign_zero hf false
    · have hsum : decide (signedUnits false m + signedUnits false n < 0) = false := by
        simp [signedUnits]
        omega
      rw [hsum]
      exact hasSign_ofRatio hf false _ _
  · exact hasSign_infinity hf false
  · exact hasSign_infinity hf false
  · exact hasSign_infinity hf false

/-- A number without a sign has a root without a sign. -/
theorem HasSign.sqrt (hf : 0 < f.precision) {x : Binary f} (hx : x.HasSign false) :
    x.sqrt.HasSign false := by
  rw [Binary.sqrt]
  rcases hx with ⟨n, hx⟩ | hx <;> simp only [hx]
  · split
    · exact hasSign_zero hf false
    · exact hasSign_ofRatio hf false _ _
  · exact hasSign_infinity hf false

/-- A finite word other than a zero stands for some units. -/
theorem exists_units {x : Binary f} (hfin : x.isFinite = true) (hmag : x.magnitude ≠ 0) :
    ∃ s n, x.value = .finite s n ∧ n ≠ 0 := by
  refine ⟨x.negative, x.units, if_pos (of_decide_eq_true hfin), ?_⟩
  rw [units]
  split
  · next hzero =>
    rw [exponentField] at hzero
    rw [fraction, Nat.mod_eq_of_lt ((Nat.div_eq_zero_iff_lt f.hidden_pos).1 hzero)]
    exact hmag
  · have hpos : 0 < f.hidden + x.fraction := Nat.add_pos_left f.hidden_pos _
    exact Nat.ne_of_gt (Nat.mul_pos hpos (Nat.pow_pos (by decide)))

/-- A number times a finite one other than zero is a number. -/
theorem isNumber_mul (hf : 0 < f.precision) {x y : Binary f} (hx : x.IsNumber)
    (hfin : y.isFinite = true) (hmag : y.magnitude ≠ 0) : (x * y).IsNumber := by
  obtain ⟨s, n, hy, hn⟩ := exists_units hfin hmag
  show (mul x y).IsNumber
  rw [mul]
  cases h : x.value with
  | finite t m =>
      simp only [hy]
      exact (hasSign_ofRatio hf _ _ _).isNumber
  | infinite t =>
      simp only [hy, if_neg hn]
      exact (hasSign_infinity hf _).isNumber
  | nan => exact absurd h hx

/-- A number through a finite one other than zero is a number. -/
theorem isNumber_div (hf : 0 < f.precision) {x y : Binary f} (hx : x.IsNumber)
    (hfin : y.isFinite = true) (hmag : y.magnitude ≠ 0) : (x / y).IsNumber := by
  obtain ⟨s, n, hy, hn⟩ := exists_units hfin hmag
  show (div x y).IsNumber
  rw [div]
  cases h : x.value with
  | finite t m =>
      simp only [hy, if_neg hn]
      exact (hasSign_ofRatio hf _ _ _).isNumber
  | infinite t =>
      simp only [hy]
      exact (hasSign_infinity hf _).isNumber
  | nan => exact absurd h hx

/-- The greater of two numbers is one of them. -/
theorem isNumber_max {x y : Binary f} (hx : x.IsNumber) (hy : y.IsNumber) :
    (x.max y).IsNumber := by
  rw [max]
  split
  · exact hy
  · split
    · exact hx
    · split
      · exact hy
      · exact hx

theorem isNumber_floor (hf : 0 < f.precision) {x : Binary f} (hx : x.IsNumber) :
    x.floor.IsNumber := by
  rw [floor]
  split
  · exact (hasSign_ofRatio hf _ _ _).isNumber
  · exact hx

end Binary

end Pitwall
