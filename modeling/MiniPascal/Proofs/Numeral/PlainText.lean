import MiniPascal.Numeral.Layout
import MiniPascal.Proofs.Grammar.Basic
import MiniPascal.Proofs.Numeral.Shortest

/-!
# Plain Text of Real Numbers Is a Literal

Numbers of moderate size are written positionally, with a digit on each side of the point.
Read as a literal of the language, such a text denotes the number again
(`denotes_plainText`).

- §1 says what a positional text stands for, for any digits and any leading power;
- §2 bounds the leading power of the shortest digits, so that they are written positionally;
- §3 puts the two together with the reading of the shortest decimal.
-/

namespace MiniPascal

/-! ## §1 Digits around a point -/

/-- Digits in front count as many tens as there are digits behind them. -/
theorem digitsValue_append (left right : List Char) :
    digitsValue (left ++ right) = digitsValue left * 10 ^ right.length + digitsValue right := by
  -- from the end, where one digit more is ten times the number and the digit
  induction right using List.reverseRecOn with
  | nil => simp [digitsValue]
  | append_singleton right c ih =>
    rw [← List.append_assoc, digitsValue_append_digit, digitsValue_append_digit, ih,
      List.length_append, List.length_singleton]
    ring

theorem digitsValue_zeros (k : Nat) : digitsValue (List.replicate k '0') = 0 := by
  induction k with
  | zero => rfl
  | succ k ih => rw [List.replicate_succ', digitsValue_append_digit, ih]; rfl

theorem isDigit_of_mem_zeros {k : Nat} {c : Char} (hinside : c ∈ List.replicate k '0') :
    c.isDigit = true := by
  rw [List.eq_of_mem_replicate hinside]
  rfl

/-- A text with a point that stands for a number. -/
def IsPointed (text : List Char) (number : ℚ) : Prop :=
  ∃ whole fraction, text = whole ++ '.' :: fraction ∧ whole ≠ [] ∧
    (∀ c ∈ whole, c.isDigit = true) ∧ (∀ c ∈ fraction, c.isDigit = true) ∧
    (digitsValue (whole ++ fraction) : ℚ) / (10 ^ fraction.length : Nat) = number

section Positional

variable {digits : List Char}

/-- Zeros in front of the digits, behind the point. -/
theorem isPointed_zeros_append (hall : ∀ c ∈ digits, c.isDigit = true) (k : Nat) :
    IsPointed ('0' :: '.' :: (List.replicate k '0' ++ digits))
      (digitsValue digits * 10 ^ (-((k + digits.length : Nat) : Int))) := by
  have hfraction : ∀ c ∈ List.replicate k '0' ++ digits, c.isDigit = true :=
    List.forall_mem_append.mpr ⟨fun _ => isDigit_of_mem_zeros, hall⟩
  refine ⟨['0'], List.replicate k '0' ++ digits, rfl, by simp, by simp, hfraction, ?_⟩
  rw [digitsValue_append, digitsValue_append, digitsValue_zeros, List.length_append,
    List.length_replicate, zpow_neg, zpow_natCast]
  simp [digitsValue, digitValue, div_eq_mul_inv]

/-- Zeros behind the digits, in front of the point. -/
theorem isPointed_append_zeros (hinside : digits ≠ []) (hall : ∀ c ∈ digits, c.isDigit = true)
    (k : Nat) :
    IsPointed (digits ++ List.replicate k '0' ++ ['.', '0'])
      (digitsValue digits * 10 ^ (k : Int)) := by
  have hwhole : ∀ c ∈ digits ++ List.replicate k '0', c.isDigit = true :=
    List.forall_mem_append.mpr ⟨hall, fun _ => isDigit_of_mem_zeros⟩
  refine ⟨digits ++ List.replicate k '0', ['0'], rfl, by simp [hinside], hwhole, by simp, ?_⟩
  rw [digitsValue_append, digitsValue_append, digitsValue_zeros, zpow_natCast]
  simp [digitsValue, digitValue]

/-- A point among the digits, behind the first `n` of them. -/
theorem isPointed_take_drop (hall : ∀ c ∈ digits, c.isDigit = true) {n : Nat}
    (hsome : digits.take n ≠ []) :
    IsPointed (digits.take n ++ '.' :: digits.drop n)
      (digitsValue digits * 10 ^ (-((digits.length - n : Nat) : Int))) := by
  refine ⟨digits.take n, digits.drop n, rfl, hsome, fun c hc => hall c (List.mem_of_mem_take hc),
    fun c hc => hall c (List.mem_of_mem_drop hc), ?_⟩
  rw [List.take_append_drop, List.length_drop, zpow_neg, zpow_natCast, div_eq_mul_inv]
  push_cast
  rfl

/-- **Positional text** has the digits where the leading power puts them. -/
theorem isPointed_positional (hinside : digits ≠ []) (hall : ∀ c ∈ digits, c.isDigit = true)
    (leading : Int) :
    IsPointed (positional digits leading)
      (digitsValue digits * 10 ^ (leading + 1 - digits.length)) := by
  have hsome := List.length_pos_iff.mpr hinside
  unfold positional
  dsimp only
  -- the point stands in front of all digits, behind all of them, or among them
  split
  · rename_i hnegative
    have hpower : leading + 1 - digits.length
        = -(((-leading - 1).toNat + digits.length : Nat) : Int) := by omega
    rw [hpower]
    exact isPointed_zeros_append hall _
  · rename_i hpositive
    split
    · rename_i hshort
      have hpower : leading + 1 - digits.length
          = (((leading + 1).toNat - digits.length : Nat) : Int) := by omega
      rw [hpower]
      exact isPointed_append_zeros hinside hall _
    · rename_i hlong
      have hpower : leading + 1 - digits.length
          = -((digits.length - (leading + 1).toNat : Nat) : Int) := by omega
      have hfront : digits.take (leading + 1).toNat ≠ [] := by
        rw [Ne, List.take_eq_nil_iff, not_or]
        exact ⟨by omega, hinside⟩
      rw [hpower]
      exact isPointed_take_drop hall hfront

end Positional

namespace Binary64

variable {x : Binary64} {d : Decimal}

/-! ## §2 The leading power -/

/-- **Plain numbers**: zero, and the numbers from `1e-4` up to but not including `1e16`, all
without a sign. -/
def IsPlain (x : Binary64) : Prop :=
  x.isNegative = false ∧ (x.magnitude = 0 ∨ (x.isFinite = true ∧
    x.denominator ≤ 10 ^ 4 * x.numerator ∧ x.numerator < 10 ^ 16 * x.denominator))

instance : DecidablePred IsPlain := fun _ => inferInstanceAs (Decidable (_ ∧ _))

/-- The power of ten that the first digit of a decimal counts. -/
theorem leading_eq_log (hsome : 0 < d.digits) :
    d.exponent + (decimal d.digits).length - 1 = Int.log 10 d.value := by
  -- the first of `n` digits counts `n - 1` tens more than the exponent
  have hlog : Int.log 10 d.value = Nat.log 10 d.digits + d.exponent := by
    exact_mod_cast log_scaled (b := 10) (by decide) hsome d.exponent
  rw [hlog, length_decimal]
  push_cast
  ring

/-- A decimal that reads back as a number without a sign rounds to it. -/
theorem ofQuotient?_of_isReadFrom (hpositive : x.isNegative = false)
    (hread : x.isReadFrom d = true) : ofQuotient? d.numerator d.denominator = some x := by
  obtain ⟨y, hfound, hsame⟩ := Option.map_eq_some_iff.mp (beq_iff_eq.mp hread)
  have hnoSign := (of_ofQuotient? hfound).2.1
  rw [hfound, ← ofNat_magnitude hpositive, ← hsame, ofNat_magnitude hnoSign]

/-- The decade of a plain number. -/
theorem log_value_of_isPlain (hfinite : x.isFinite = true) (hnonzero : x.magnitude ≠ 0)
    (hleast : x.denominator ≤ 10 ^ 4 * x.numerator)
    (hgreatest : x.numerator < 10 ^ 16 * x.denominator) :
    -4 ≤ Int.log 10 x.value ∧ Int.log 10 x.value < 16 := by
  have hdivisor : (0 : ℚ) < x.denominator := by exact_mod_cast x.denominator_pos
  have hvalue := x.numerator_div_denominator
  constructor
  · rw [← Int.zpow_le_iff_le_log (by decide) (value_pos hfinite hnonzero), ← hvalue,
      le_div_iff₀ hdivisor]
    have hleast : (x.denominator : ℚ) ≤ 10 ^ 4 * x.numerator := by exact_mod_cast hleast
    norm_num at hleast ⊢
    linarith
  · rw [← Int.lt_zpow_iff_log_lt (by decide) (value_pos hfinite hnonzero), ← hvalue,
      div_lt_iff₀ hdivisor]
    exact_mod_cast hgreatest

/-- What `1e16` rounds to is not below it, so no plain number is written so. -/
theorem value_ne_of_isReadFrom (hpositive : x.isNegative = false)
    (hgreatest : x.numerator < 10 ^ 16 * x.denominator) (hread : x.isReadFrom d = true) :
    d.value ≠ 10 ^ 16 := by
  intro hsame
  have hpower : (⟨1, 16⟩ : Decimal).value = 10 ^ 16 := by
    simp only [Decimal.value, Nat.cast_one, one_mul]
    norm_cast
  rw [isReadFrom_congr (hsame.trans hpower.symm)] at hread
  have hfound := ofQuotient?_of_isReadFrom hpositive hread
  -- the rounding of `1e16` is evaluated, and is not below `1e16`
  have hknown : ofQuotient? (Decimal.numerator ⟨1, 16⟩) (Decimal.denominator ⟨1, 16⟩)
      = some ⟨0x4341C37937E08000⟩ := by rfl
  obtain rfl := Option.some.inj (hknown.symm.trans hfound)
  exact absurd hgreatest (by decide)

/-- **Plain numbers are written positionally**: the first digit counts at least `1e-4` and at
most `1e15`. -/
theorem leading_of_isPlain (hpositive : x.isNegative = false) (hfinite : x.isFinite = true)
    (hnonzero : x.magnitude ≠ 0) (hleast : x.denominator ≤ 10 ^ 4 * x.numerator)
    (hgreatest : x.numerator < 10 ^ 16 * x.denominator) (hrepresents : x.Represents d) :
    -4 ≤ Int.log 10 d.value ∧ Int.log 10 d.value ≤ 15 := by
  obtain ⟨hlow, hhigh⟩ := log_value_of_isPlain hfinite hnonzero hleast hgreatest
  have hstart : (0 : ℚ) < 10 ^ Int.log 10 x.value := by positivity
  have hpos : 0 < d.value := lt_of_lt_of_le hstart hrepresents.low
  have hfrom_below := (Int.zpow_le_iff_le_log (b := 10) (by decide) hpos).mp
    (by exact_mod_cast hrepresents.low)
  refine ⟨by omega, ?_⟩
  -- the end of the last decade is the only decimal in question, and it does not read back
  by_contra hbeyond
  have hreached := (Int.zpow_le_iff_le_log (b := 10) (by decide) hpos (x := 16)).mpr (by omega)
  have hlimit : (10 : ℚ) ^ (Int.log 10 x.value + 1) ≤ 10 ^ (16 : Int) :=
    zpow_le_zpow_right₀ (by norm_num) (by omega)
  have hreached' : (10 : ℚ) ^ (16 : Int) ≤ d.value := by exact_mod_cast hreached
  have hsame : d.value = (10 : ℚ) ^ (16 : Int) :=
    le_antisymm (le_trans hrepresents.high hlimit) hreached'
  exact value_ne_of_isReadFrom hpositive hgreatest hrepresents.readsBack (by exact_mod_cast hsame)

/-! ## §3 Plain text -/

/-- A finite number is written in the plain layout. -/
theorem plainText_eq_finite (hfinite : x.isFinite = true) :
    x.plainText = plainLayout.finite x := by
  have hnumber : x.isNaN = false := by
    have hsmall := isFinite_iff.mp hfinite
    simp only [isNaN, decide_eq_false_iff_not]
    omega
  simp [plainText, hnumber, hfinite]

theorem plainText_of_finite (hpositive : x.isNegative = false) (hfinite : x.isFinite = true) :
    x.plainText.toList = plainLayout.absolute x := by
  simp [plainText_eq_finite hfinite, RealLayout.finite, hpositive]

/-- A text with a point denotes what its quotient rounds to. -/
theorem denotes_of_isPointed {text : List Char} (hpointed : IsPointed text d.value)
    (hpositive : x.isNegative = false) (hread : x.isReadFrom d = true) :
    Grammar.Denotes text (.real x) := by
  obtain ⟨whole, fraction, rfl, hinside, hleft, hright, hsame⟩ := hpointed
  have hvalue : Grammar.realValue whole fraction = x := by
    have hpower : 0 < 10 ^ fraction.length := Nat.pow_pos (by decide)
    rw [← d.numerator_div_denominator] at hsame
    rw [Grammar.realValue, Nat.pow_eq, ofQuotient?_congr hpower d.denominator_pos hsame,
      ofQuotient?_of_isReadFrom hpositive hread]
    rfl
  rw [← hvalue]
  exact .real hinside hleft hright

theorem denotes_plainText_zero (hpositive : x.isNegative = false) (hzero : x.magnitude = 0) :
    Grammar.Denotes x.plainText.toList (.real x) := by
  have hfinite : x.isFinite = true := by simp [isFinite_iff, hzero, infinityMagnitude]
  have htext : x.plainText.toList = ['0'] ++ '.' :: ['0'] := by
    rw [plainText_of_finite hpositive hfinite, RealLayout.absolute, if_pos hzero]
    rfl
  have hvalue : Grammar.realValue ['0'] ['0'] = x := by
    rw [← ofNat_magnitude hpositive, hzero]
    rfl
  rw [htext, ← hvalue]
  exact .real (by simp) (by simp) (by simp)

/-- **Plain text reads back.**  As a literal, the text of a plain number denotes the
number. -/
theorem denotes_plainText (hplain : x.IsPlain) : Grammar.Denotes x.plainText.toList (.real x) := by
  obtain ⟨hpositive, hbounds⟩ := hplain
  by_cases hzero : x.magnitude = 0
  · -- zero has no shortest digits, and a text of its own
    exact denotes_plainText_zero hpositive hzero
  · obtain ⟨hfinite, hleast, hgreatest⟩ := hbounds.resolve_left hzero
    have hrepresents := shortest_represents hfinite hzero .up
    have hsome : 0 < (x.shortest .up).digits :=
      Decimal.digits_pos_of_value_pos (lt_of_lt_of_le (by positivity) hrepresents.low)
    have hlog := leading_eq_log hsome
    -- the leading power is within the layout's bounds, so the text is positional
    have hrange := leading_of_isPlain hpositive hfinite hzero hleast hgreatest hrepresents
    rw [← hlog] at hrange
    have htext : x.plainText.toList = positional (decimal (x.shortest .up).digits)
        ((x.shortest .up).exponent + (decimal (x.shortest .up).digits).length - 1) := by
      rw [plainText_of_finite hpositive hfinite, RealLayout.absolute, if_neg hzero]
      exact if_pos hrange
    have hpointed := isPointed_positional (decimal_ne_nil (x.shortest .up).digits)
      (isDigit_of_mem_decimal _)
      ((x.shortest .up).exponent + (decimal (x.shortest .up).digits).length - 1)
    -- the leading power puts the point where the exponent has it
    have hpower : (x.shortest .up).exponent + (decimal (x.shortest .up).digits).length - 1 + 1
        - (decimal (x.shortest .up).digits).length = (x.shortest .up).exponent := by ring
    rw [hpower, digitsValue_decimal] at hpointed
    rw [htext]
    exact denotes_of_isPointed hpointed hpositive hrepresents.readsBack

end Binary64

end MiniPascal
