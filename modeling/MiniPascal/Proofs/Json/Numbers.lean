import MiniPascal.Json.Scalar
import MiniPascal.Proofs.Json.Grammar
import MiniPascal.Proofs.Numeral.PlainText
import MiniPascal.Proofs.Text.Stretches

/-!
# Numbers in JSON

How numbers are read from their numerals, and that what is written for a number is a numeral
that reads back as the number.  A numeral without a point and without a power of ten is a whole
number, and every other one a real number.

- `integerText_reads`: whole numbers are written without a point or a power of ten;
- `finite_reads`: finite real numbers are written with one of them, and with digits that
  round to the number, its sign included.
-/

namespace MiniPascal

/-- The number with the magnitude of `x` and a sign of its own. -/
def Binary64.withSign (negative : Bool) (x : Binary64) : Binary64 :=
  ⟨UInt64.ofNat (x.magnitude + if negative then Nat.pow 2 63 else 0)⟩

/-- A number is its magnitude with its sign. -/
theorem Binary64.withSign_isNegative {x y : Binary64} (hsame : y.magnitude = x.magnitude) :
    y.withSign x.isNegative = x := by
  have hsmall : x.bits.toNat < 2 ^ 64 := x.bits.toNat_lt
  -- the sign is the highest bit, and the magnitude all bits below it
  have hwhole : y.magnitude + (if x.isNegative then Nat.pow 2 63 else 0) = x.bits.toNat := by
    rw [hsame]
    simp only [magnitude, isNegative, Nat.pow_eq, decide_eq_true_eq]
    split <;> omega
  rw [withSign, hwhole, UInt64.ofNat_toNat]

namespace Json

/-! ## §1 Reading numerals -/

namespace Numeral

/-- Whether a numeral has a point or a power of ten. -/
def isReal (numeral : Numeral) : Bool :=
  numeral.fraction?.isSome || numeral.power?.isSome

/-- The whole number of a numeral without point and power. -/
def integer (numeral : Numeral) : Int :=
  if numeral.negative then -digitsValue numeral.whole else digitsValue numeral.whole

/-- The digits of a numeral with their power of ten. -/
def decimal (numeral : Numeral) : Decimal :=
  ⟨digitsValue (numeral.whole ++ numeral.fraction?.getD []),
    numeral.power?.getD 0 - (numeral.fraction?.getD []).length⟩

/-- The real number nearest to a numeral, with its sign.  There is none if the numeral is too
large. -/
def real? (numeral : Numeral) : Option Binary64 :=
  (Binary64.ofQuotient? numeral.decimal.numerator numeral.decimal.denominator).map
    (·.withSign numeral.negative)

end Numeral

theorem IsNumeral.negate {numeral : Numeral} {text : List Char} (hnumeral : IsNumeral numeral text)
    (hpositive : numeral.negative = false) :
    IsNumeral { numeral with negative := true } ('-' :: text) := by
  cases hnumeral with
  | positive hwhole hfraction hpower => exact .negative hwhole hfraction hpower
  | negative => cases hpositive

/-! ## §2 Whole numbers -/

theorem isDigits_decimal (n : Nat) : IsDigits (MiniPascal.decimal n) :=
  ⟨decimal_ne_nil n, isDigit_of_mem_decimal n⟩

theorem decimal_ne_zero {n : Nat} (hpositive : 0 < n) : MiniPascal.decimal n ≠ ['0'] := by
  intro hsame
  have hvalue := digitsValue_decimal n
  rw [hsame] at hvalue
  exact absurd hvalue.symm (Nat.ne_of_gt hpositive)

theorem isWhole_decimal (n : Nat) : IsWhole (MiniPascal.decimal n) := by
  refine ⟨isDigits_decimal n, ?_⟩
  fun_induction MiniPascal.decimal n with
  | case1 n hsmall =>
    intro hzero
    rw [Option.some.inj hzero]
  | case2 n hlarge ih =>
    -- the digits in front are those of a smaller number, which is not zero
    intro hzero
    rw [List.head?_append_of_ne_nil _ (decimal_ne_nil _)] at hzero
    exact absurd (ih hzero) (decimal_ne_zero (by omega))

theorem isNumeral_decimal (n : Nat) :
    IsNumeral ⟨false, MiniPascal.decimal n, none, none⟩ (MiniPascal.decimal n) := by
  have hwritten := IsNumeral.positive (isWhole_decimal n) .none .none
  rwa [List.append_nil, List.append_nil] at hwritten

/-- **Whole numbers are written as such.** -/
theorem integerText_reads (value : Int) :
    ∃ numeral, IsNumeral numeral (integerText value).toList ∧ numeral.isReal = false ∧
      numeral.integer = value := by
  cases value with
  | ofNat n =>
    have hwritten := isNumeral_decimal n
    rw [integerText, String.toList_ofList]
    exact ⟨_, hwritten, rfl, congrArg Int.ofNat (digitsValue_decimal n)⟩
  | negSucc n =>
    -- the constructor counts from minus one, so the digits are those of the next number
    have hwritten := (isNumeral_decimal (n + 1)).negate rfl
    rw [integerText, String.toList_ofList]
    refine ⟨_, hwritten, rfl, ?_⟩
    rw [Numeral.integer, if_pos rfl, digitsValue_decimal]
    rfl

/-! ## §3 Real numbers -/

/-- A text without a sign that is written for a real number. -/
def WritesReal (text : List Char) (number : ℚ) : Prop :=
  ∃ numeral, IsNumeral numeral text ∧ numeral.negative = false ∧ numeral.isReal = true ∧
    numeral.decimal.value = number

/-- The digits around a point are found again. -/
theorem value_of_isPointed {whole fraction : List Char} {number : ℚ}
    (hleft : ∀ c ∈ whole, c.isDigit = true)
    (hpointed : IsPointed (whole ++ '.' :: fraction) number) :
    (⟨digitsValue (whole ++ fraction), -fraction.length⟩ : Decimal).value = number := by
  obtain ⟨whole', fraction', hsame, -, hleft', -, hvalue⟩ := hpointed
  have hpoint : ∀ more, ∀ c ∈ ('.' :: more).head?, c.isDigit = false := forall_head?_cons rfl
  -- both splittings of the text end their first run of digits at the same point
  have hfront := congrArg (List.takeWhile Char.isDigit) hsame
  rw [takeWhile_run hleft (hpoint _), takeWhile_run hleft' (hpoint _)] at hfront
  subst hfront
  obtain rfl := (List.cons.inj (List.append_cancel_left hsame)).2
  rw [Decimal.value, zpow_neg, zpow_natCast, ← div_eq_mul_inv, ← hvalue]
  push_cast
  rfl

theorem writesReal_of_point {whole fraction : List Char} {number : ℚ} (hwhole : IsWhole whole)
    (hdigits : IsDigits fraction) (hpointed : IsPointed (whole ++ '.' :: fraction) number) :
    WritesReal (whole ++ '.' :: fraction) number := by
  have hwritten := IsNumeral.positive hwhole (.digits hdigits) .none
  rw [List.append_nil] at hwritten
  refine ⟨_, hwritten, rfl, rfl, ?_⟩
  -- without a power of ten the exponent is that of the fraction
  rw [← value_of_isPointed hwhole.isDigits.2 hpointed, Numeral.decimal]
  simp

section Layouts

variable {digits : List Char}

theorem isDigits_zeros {k : Nat} (hsome : k ≠ 0) : IsDigits (List.replicate k '0') :=
  ⟨by simpa using hsome, fun _ => isDigit_of_mem_zeros⟩

theorem isWhole_zero : IsWhole ['0'] :=
  ⟨isDigits_zeros Nat.one_ne_zero, fun _ => rfl⟩

/-- Digits that do not begin with a zero may be followed by any others. -/
theorem IsWhole.part {d : Char} {more others : List Char} (hwhole : IsWhole (d :: more))
    (hnonzero : d :: more ≠ ['0']) (hall : ∀ c ∈ others, c.isDigit = true) :
    IsWhole (d :: others) := by
  have hdigit : d.isDigit = true := hwhole.isDigits.2 d List.mem_cons_self
  refine ⟨⟨List.cons_ne_nil _ _, List.forall_mem_cons.mpr ⟨hdigit, hall⟩⟩, ?_⟩
  -- a zero in front would have been the only digit
  intro hzero
  exact absurd (hwhole.noLeadingZero hzero) hnonzero

/-- Positional text is a numeral with a point. -/
theorem writesReal_of_isPointed (hwhole : IsWhole digits) (hnonzero : digits ≠ ['0'])
    {leading : Int} {number : ℚ} (hpointed : IsPointed (positional digits leading) number) :
    WritesReal (positional digits leading) number := by
  obtain ⟨d, more, rfl⟩ := List.exists_cons_of_ne_nil hwhole.isDigits.1
  have hall : ∀ c ∈ more, c.isDigit = true :=
    fun c hinside => hwhole.isDigits.2 c (List.mem_cons_of_mem d hinside)
  unfold positional at hpointed ⊢
  dsimp only at hpointed ⊢
  split
  · -- the first digit stands behind the point, and zeros before it
    rename_i hnegative
    rw [if_pos hnegative] at hpointed
    have hfraction : IsDigits (List.replicate (-leading - 1).toNat '0' ++ d :: more) :=
      ⟨by simp, List.forall_mem_append.mpr ⟨fun _ => isDigit_of_mem_zeros, hwhole.isDigits.2⟩⟩
    exact writesReal_of_point isWhole_zero hfraction hpointed
  · rename_i hpositive
    rw [if_neg hpositive] at hpointed
    split
    · -- all digits stand before the point, and zeros behind them
      rename_i hshort
      rw [if_pos hshort] at hpointed
      have hzeros : ∀ c ∈ more ++ List.replicate ((leading + 1).toNat - (d :: more).length) '0',
          c.isDigit = true :=
        List.forall_mem_append.mpr ⟨hall, fun _ => isDigit_of_mem_zeros⟩
      exact writesReal_of_point (hwhole.part hnonzero hzeros) isWhole_zero.isDigits hpointed
    · -- the point stands among the digits
      rename_i hlong
      rw [if_neg hlong] at hpointed
      obtain ⟨k, hbefore⟩ : ∃ k, (leading + 1).toNat = k + 1 := ⟨leading.toNat, by omega⟩
      rw [hbefore] at hlong hpointed ⊢
      have hfront : ∀ c ∈ more.take k, c.isDigit = true :=
        fun c hinside => hall c (List.mem_of_mem_take hinside)
      -- the point has digits behind it, or the text would be short
      have hbehind : IsDigits (more.drop k) := by
        refine ⟨?_, fun c hinside => hall c (List.mem_of_mem_drop hinside)⟩
        rw [Ne, List.drop_eq_nil_iff]
        rw [List.length_cons] at hlong
        omega
      exact writesReal_of_point (hwhole.part hnonzero hfront) hbehind hpointed

/-- **Positional text** is written for a real number, as it has a point. -/
theorem writesReal_positional (hwhole : IsWhole digits) (hnonzero : digits ≠ ['0'])
    (leading : Int) :
    WritesReal (positional digits leading)
      (digitsValue digits * 10 ^ (leading + 1 - digits.length)) :=
  writesReal_of_isPointed hwhole hnonzero
    (isPointed_positional hwhole.isDigits.1 hwhole.isDigits.2 leading)

/-- A power of ten, where a positive one has a sign or none. -/
theorem isPower_signed {mark : String} (hknown : mark = "+" ∨ mark = "") (leading : Int) :
    IsPower (some leading)
      ('e' :: ((if 0 ≤ leading then mark else "") ++ integerText leading).toList) := by
  have hletter : isPowerLetter 'e' = true := rfl
  -- only a power that is not negative has the mark of the layout
  cases leading with
  | ofNat n =>
    have hsigned := IsPower.positive hletter (isDigits_decimal n)
    have hunsigned := IsPower.unsigned hletter (isDigits_decimal n)
    have hsign : (0 : Int) ≤ Int.ofNat n := Int.natCast_nonneg n
    have htext : (integerText (Int.ofNat n)).toList = decimal n := String.toList_ofList
    rw [digitsValue_decimal] at hsigned hunsigned
    rw [if_pos hsign, String.toList_append, htext]
    -- with a sign or without one, the grammar has a rule
    rcases hknown with rfl | rfl
    · exact hsigned
    · exact hunsigned
  | negSucc n =>
    have hwritten := IsPower.negative hletter (isDigits_decimal (n + 1))
    have hsign : ¬ 0 ≤ Int.negSucc n := Int.not_le.mpr (Int.negSucc_lt_zero n)
    have htext : (integerText (Int.negSucc n)).toList = '-' :: decimal (n + 1) :=
      String.toList_ofList
    rw [digitsValue_decimal] at hwritten
    rw [if_neg hsign, String.toList_append, htext]
    exact hwritten

/-- **Scientific text** is written for a real number, as it has a power of ten. -/
theorem writesReal_scientific {mark : String} (hknown : mark = "+" ∨ mark = "")
    (hdigits : IsDigits digits) (leading : Int) :
    WritesReal (scientific mark digits leading)
      (digitsValue digits * 10 ^ (leading + 1 - digits.length)) := by
  have hpower := isPower_signed hknown leading
  obtain ⟨d, more, rfl⟩ := List.exists_cons_of_ne_nil hdigits.1
  have hfirst : IsWhole [d] := by
    refine ⟨⟨List.cons_ne_nil _ _, ?_⟩, ?_⟩
    · exact List.forall_mem_singleton.mpr (hdigits.2 d List.mem_cons_self)
    · intro hzero
      rw [Option.some.inj hzero]
  unfold scientific
  dsimp only
  -- the power of ten is the same in both forms of the digits
  generalize 'e' :: _ = power at hpower ⊢
  -- a single digit has no point behind it
  cases more with
  | nil =>
    refine ⟨_, .positive hfirst .none hpower, rfl, rfl, ?_⟩
    simp [Numeral.decimal, Decimal.value]
  | cons d' more =>
    have hothers : IsDigits (d' :: more) :=
      ⟨List.cons_ne_nil _ _, fun c hinside => hdigits.2 c (List.mem_cons_of_mem d hinside)⟩
    refine ⟨_, .positive hfirst (.digits hothers) hpower, rfl, rfl, ?_⟩
    simp [Numeral.decimal, Decimal.value]

end Layouts

/-! ## §4 Finite numbers -/

section Finite

variable {x : Binary64} {text : List Char} {d : Decimal}

/-- A numeral whose digits round to a number is read as the number. -/
theorem real?_of_isReadFrom {numeral : Numeral} (hread : x.isReadFrom d = true)
    (hvalue : numeral.decimal.value = d.value) (hsign : numeral.negative = x.isNegative) :
    numeral.real? = some x := by
  rw [← Binary64.isReadFrom_congr hvalue] at hread
  obtain ⟨y, hfound, hsame⟩ := Option.map_eq_some_iff.mp (beq_iff_eq.mp hread)
  rw [Numeral.real?, hfound, Option.map_some, hsign, Binary64.withSign_isNegative hsame]

/-- A text for the absolute value of a number, with the sign of the number before it. -/
theorem exists_numeral_of_writesReal (hwrites : WritesReal text d.value)
    (hread : x.isReadFrom d = true) :
    ∃ numeral, IsNumeral numeral (if x.isNegative then '-' :: text else text) ∧
      numeral.isReal = true ∧ numeral.real? = some x := by
  obtain ⟨numeral, hnumeral, hpositive, hreal, hvalue⟩ := hwrites
  cases hsign : x.isNegative with
  | false =>
    refine ⟨numeral, hnumeral, hreal, real?_of_isReadFrom hread hvalue ?_⟩
    rw [hpositive, hsign]
  | true =>
    -- the sign in front is all that changes in the numeral
    refine ⟨_, hnumeral.negate hpositive, hreal, real?_of_isReadFrom hread hvalue ?_⟩
    rw [hsign]

/-- **Finite real numbers** are written with a point or a power of ten, and read back, whatever
the layout has for a positive power. -/
theorem finite_reads {layout : RealLayout}
    (hknown : layout.positiveMark = "+" ∨ layout.positiveMark = "") (hfinite : x.isFinite = true) :
    ∃ numeral, IsNumeral numeral (layout.finite x).toList ∧ numeral.isReal = true ∧
      numeral.real? = some x := by
  rw [RealLayout.finite, String.toList_ofList]
  by_cases hzero : x.magnitude = 0
  · -- zero has a text of its own
    have hread : x.isReadFrom ⟨0, 0⟩ = true := by
      rw [Binary64.isReadFrom, hzero]
      decide
    have hwrites : WritesReal ['0', '.', '0'] (⟨0, 0⟩ : Decimal).value := by
      refine ⟨_, .positive isWhole_zero (.digits isWhole_zero.isDigits) .none, rfl, rfl, ?_⟩
      simp [Numeral.decimal, Decimal.value, digitsValue, digitValue]
    rw [RealLayout.absolute, if_pos hzero]
    exact exists_numeral_of_writesReal hwrites hread
  · -- any other number is written with its shortest digits, which read back as the number
    have hrepresents := Binary64.shortest_represents hfinite hzero layout.tie
    have hsome : 0 < (x.shortest layout.tie).digits :=
      Decimal.digits_pos_of_value_pos (lt_of_lt_of_le (by positivity) hrepresents.low)
    rw [RealLayout.absolute, if_neg hzero]
    dsimp only
    generalize x.shortest layout.tie = d at hrepresents hsome ⊢
    -- the leading power puts the point where the exponent has it
    have hpower : d.exponent + (decimal d.digits).length - 1 + 1 - (decimal d.digits).length
        = d.exponent := by ring
    have hnonzero := decimal_ne_zero hsome
    -- the layout writes the powers of ten in its middle range positionally
    by_cases hmiddle : layout.leastPositional ≤ d.exponent + (decimal d.digits).length - 1 ∧
        d.exponent + (decimal d.digits).length - 1 ≤ layout.greatestPositional
    · have hwrites := writesReal_positional (isWhole_decimal d.digits) hnonzero
        (d.exponent + (decimal d.digits).length - 1)
      rw [hpower, digitsValue_decimal] at hwrites
      rw [if_pos hmiddle]
      exact exists_numeral_of_writesReal hwrites hrepresents.readsBack
    · have hwrites := writesReal_scientific hknown (isDigits_decimal d.digits)
        (d.exponent + (decimal d.digits).length - 1)
      rw [hpower, digitsValue_decimal] at hwrites
      rw [if_neg hmiddle]
      exact exists_numeral_of_writesReal hwrites hrepresents.readsBack

/-- The numbers of a document are read back. -/
theorem realText_reads (hfinite : x.isFinite = true) :
    ∃ numeral, IsNumeral numeral (realLayout.finite x).toList ∧ numeral.isReal = true ∧
      numeral.real? = some x :=
  finite_reads (.inl rfl) hfinite

end Finite

end Json

end MiniPascal
