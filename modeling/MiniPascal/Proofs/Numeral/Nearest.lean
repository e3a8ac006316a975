import MiniPascal.Proofs.Numeral.Overflow

/-!
# Rounding Finds the Nearest Number

A finite pattern of the 64-bit format denotes a rational number, and so the format is a finite
set of rational numbers, the denser the nearer they are to zero.  `IsNearest` says which of its
patterns a number should be rounded to, without a word on how it is found.

- `IsNearest.unique`: there is one such pattern at most;
- `IsNearest.mono`: a greater number has no smaller one;
- `isNearest_of_ofQuotient?`: `ofQuotient?` finds it;
- `isNearest_largest`: for numbers that are too large it is the largest one.

Between neighbours of one exponent the numbers of the format are evenly spaced, so there the
nearest one is the nearest whole number in steps of that exponent (§1).  Numbers of smaller
exponents are farther away in any case (§4).
-/

namespace MiniPascal

/-! ## §1 The nearest whole number -/

section Whole

variable {num den k : Nat}

/-- A whole number at the distance of one half is even. -/
theorem even_roundHalfEven_of_half (hden : 0 < den) (num : Nat)
    (hhalf : 2 * num = (2 * roundHalfEven num den + 1) * den ∨
      2 * num + den = 2 * roundHalfEven num den * den) : roundHalfEven num den % 2 = 0 := by
  have hdivided := Nat.div_add_mod num den
  have hsmall := Nat.mod_lt num hden
  have hproduct : ∀ k, (2 * k + 1) * den = 2 * (den * k) + den ∧ 2 * k * den = 2 * (den * k) := by
    intro k
    constructor <;> ring
  rw [(hproduct _).1, (hproduct _).2] at hhalf
  unfold roundHalfEven at hhalf ⊢
  dsimp only at hhalf ⊢
  -- with quotient and remainder named, what is left is linear
  generalize num / den = q at *
  generalize num % den = r at *
  split
  · -- the remainder would have to be one half
    rename_i hless
    rw [if_pos hless] at hhalf
    omega
  · rename_i hnotLess
    rw [if_neg hnotLess] at hhalf
    split
    · rename_i hmore
      rw [if_pos hmore, Nat.mul_add] at hhalf
      omega
    · omega

/-- **No whole number is nearer** to a quotient than the one that it is rounded to. -/
theorem roundHalfEven_nearest (hden : 0 < den) (num k : Nat) :
    |(num : ℚ) / den - roundHalfEven num den| ≤ |(num : ℚ) / den - k| := by
  obtain ⟨habove, hbelow⟩ := roundHalfEven_near hden num
  have hhalf : |(num : ℚ) / den - roundHalfEven num den| ≤ 1 / 2 := abs_sub_le_iff.mpr
    ⟨by linarith, by linarith⟩
  -- any other whole number is a whole step away from this one, and so at least one half from
  -- the quotient
  rcases Nat.lt_trichotomy k (roundHalfEven num den) with hless | rfl | hmore
  · have hstep : (k : ℚ) + 1 ≤ roundHalfEven num den := by exact_mod_cast hless
    calc |(num : ℚ) / den - roundHalfEven num den| ≤ 1 / 2 := hhalf
      _ ≤ (num : ℚ) / den - k := by linarith
      _ ≤ |(num : ℚ) / den - k| := le_abs_self _
  · exact le_refl _
  · have hstep : (roundHalfEven num den : ℚ) + 1 ≤ k := by exact_mod_cast hmore
    calc |(num : ℚ) / den - roundHalfEven num den| ≤ 1 / 2 := hhalf
      _ ≤ -((num : ℚ) / den - k) := by linarith
      _ ≤ |(num : ℚ) / den - k| := neg_le_abs _

/-- **Ties go to the even number.** -/
theorem even_roundHalfEven_of_tie (hden : 0 < den) (num : Nat) (hother : k ≠ roundHalfEven num den)
    (htie : |(num : ℚ) / den - roundHalfEven num den| = |(num : ℚ) / den - k|) :
    roundHalfEven num den % 2 = 0 := by
  obtain ⟨habove, hbelow⟩ := roundHalfEven_near hden num
  have hpos : (0 : ℚ) < den := by exact_mod_cast hden
  apply even_roundHalfEven_of_half hden
  rcases Nat.lt_or_gt_of_ne hother with hless | hmore
  · -- the quotient is half way down to the number below
    right
    have hstep : (k : ℚ) + 1 ≤ roundHalfEven num den := by exact_mod_cast hless
    have hdistance : (num : ℚ) / den - k ≤ 1 / 2 := by
      calc (num : ℚ) / den - k ≤ |(num : ℚ) / den - k| := le_abs_self _
        _ = |(num : ℚ) / den - roundHalfEven num den| := htie.symm
        _ ≤ 1 / 2 := abs_sub_le_iff.mpr ⟨by linarith, by linarith⟩
    have hmiddle : (num : ℚ) / den = roundHalfEven num den - 1 / 2 := by linarith
    rw [div_eq_iff hpos.ne'] at hmiddle
    have hexact : 2 * (num : ℚ) + den = 2 * roundHalfEven num den * den := by linarith
    exact_mod_cast hexact
  · -- the quotient is half way up to the number above
    left
    have hstep : (roundHalfEven num den : ℚ) + 1 ≤ k := by exact_mod_cast hmore
    have hdistance : -((num : ℚ) / den - k) ≤ 1 / 2 := by
      calc -((num : ℚ) / den - k) ≤ |(num : ℚ) / den - k| := neg_le_abs _
        _ = |(num : ℚ) / den - roundHalfEven num den| := htie.symm
        _ ≤ 1 / 2 := abs_sub_le_iff.mpr ⟨by linarith, by linarith⟩
    have hmiddle : (num : ℚ) / den = roundHalfEven num den + 1 / 2 := by linarith
    rw [div_eq_iff hpos.ne'] at hmiddle
    have hexact : 2 * (num : ℚ) = (2 * roundHalfEven num den + 1) * den := by linarith
    exact_mod_cast hexact

end Whole

namespace Binary64

variable {x y : Binary64} {q q' : ℚ} {num den : Nat}

/-! ## §2 The numbers of the format in their order -/

theorem value_nonneg (x : Binary64) : 0 ≤ x.value := by
  rw [value]
  positivity

theorem value_of_zero (hzero : x.magnitude = 0) : x.value = 0 := by
  simp [value, significand, biasedExponent, hzero]

theorem significand_lt (x : Binary64) : x.significand < 2 ^ 53 := by
  have hfraction : x.magnitude % 2 ^ 52 < 2 ^ 52 := Nat.mod_lt _ (Nat.two_pow_pos 52)
  simp only [significand, Nat.pow_eq]
  split <;> omega

theorem exponent_ge (x : Binary64) : -1074 ≤ x.exponent := by
  rw [exponent]
  omega

/-- The number that a packed magnitude stands for.  A significand of `2 ^ 53` has carried into
the exponent, and the number is the same. -/
theorem value_of_packed {j k : Nat} (hpacked : x.magnitude = j * 2 ^ 52 + k) (hshort : k ≤ 2 ^ 53)
    (hfull : j = 0 ∨ 2 ^ 52 ≤ k) :
    x.value = k * 2 ^ ((j : Int) - 1074) ∧ x.significand % 2 = k % 2 := by
  have hbiased : x.biasedExponent = x.magnitude / 2 ^ 52 := rfl
  have hscale : x.exponent = (max x.biasedExponent 1 : Nat) - 1075 := rfl
  rcases Nat.lt_trichotomy k (2 ^ 53) with hbelow | hcarried | habove
  · -- the significand is `k`, with its leading bit or, at the least exponent, without
    have hsignificand : x.significand = k := by
      simp only [significand, Nat.pow_eq]
      split <;> omega
    have hexponent : x.exponent = (j : Int) - 1074 := by omega
    rw [value, hsignificand, hexponent]
    exact ⟨rfl, rfl⟩
  · -- the carry leaves the leading bit alone, at the next exponent
    have hsignificand : x.significand = 2 ^ 52 := by
      simp only [significand, Nat.pow_eq]
      split <;> omega
    have hexponent : x.exponent = (j : Int) - 1074 + 1 := by omega
    rw [value, hsignificand, hexponent, hcarried, zpow_add_one₀ (by norm_num)]
    refine ⟨?_, rfl⟩
    push_cast
    ring
  · omega

/-- **The magnitudes are in the order of the numbers** that they stand for. -/
theorem value_lt_value (hfinite : y.isFinite = true) (hless : x.magnitude < y.magnitude) :
    x.value < y.value := by
  have hfinite' : x.isFinite = true :=
    isFinite_iff.mpr (Nat.lt_trans hless (isFinite_iff.mp hfinite))
  by_cases hzero : x.magnitude = 0
  · rw [value_of_zero hzero]
    exact value_pos hfinite (by omega)
  · obtain ⟨-, hbits, hleast, hfull, hpacked⟩ := significand_cases hfinite' hzero
    obtain ⟨-, hbits', hleast', hfull', hpacked'⟩ :=
      significand_cases hfinite (by omega : y.magnitude ≠ 0)
    rw [value, value]
    rcases lt_trichotomy x.exponent y.exponent with hlower | hsame | hhigher
    · -- the significand below is short, the one above has its leading bit
      have hlong : 2 ^ 52 ≤ y.significand := by omega
      have hbits : (x.significand : ℚ) < 2 ^ 53 := by exact_mod_cast hbits
      have hlong : (2 : ℚ) ^ 52 ≤ y.significand := by exact_mod_cast hlong
      calc x.significand * (2 : ℚ) ^ x.exponent < 2 ^ 53 * 2 ^ x.exponent := by gcongr
        _ = 2 ^ 52 * 2 ^ (x.exponent + 1) := by
          rw [zpow_add_one₀ (by norm_num)]
          ring
        _ ≤ 2 ^ 52 * 2 ^ y.exponent := by
          gcongr
          · norm_num
          · omega
        _ ≤ y.significand * 2 ^ y.exponent := by gcongr
    · -- at one exponent the significands are in the order of the magnitudes
      have hdigits : x.significand < y.significand := by omega
      have hdigits : (x.significand : ℚ) < y.significand := by exact_mod_cast hdigits
      rw [hsame]
      gcongr
    · omega

theorem value_le_value (hfinite : y.isFinite = true) (hless : x.magnitude ≤ y.magnitude) :
    x.value ≤ y.value := by
  rcases Nat.lt_or_eq_of_le hless with hless | hsame
  · exact (value_lt_value hfinite hless).le
  · have hdigits : x.significand = y.significand := by
      rw [significand, significand, biasedExponent, biasedExponent, hsame]
    have hscale : x.exponent = y.exponent := by
      rw [exponent, exponent, biasedExponent, biasedExponent, hsame]
    rw [value, value, hdigits, hscale]

/-! ## §3 The nearest number of the format -/

/-- The number that a finite pattern denotes, with its sign. -/
def signedValue (x : Binary64) : ℚ := if x.isNegative then -x.value else x.value

/-- **The nearest number of the format**: a finite pattern without a sign, with no finite number
nearer to `q`, and with an even significand if another one is equally near. -/
structure IsNearest (q : ℚ) (x : Binary64) : Prop where
  finite : x.isFinite = true
  positive : x.isNegative = false
  nearest : ∀ y : Binary64, y.isFinite = true → |q - x.signedValue| ≤ |q - y.signedValue|
  even : ∀ y : Binary64, y.isFinite = true → y.signedValue ≠ x.signedValue →
    |q - x.signedValue| = |q - y.signedValue| → x.significand % 2 = 0

theorem signedValue_of_positive (hpositive : x.isNegative = false) : x.signedValue = x.value := by
  simp [signedValue, hpositive]

/-- A pattern without a sign is found from its number. -/
theorem eq_of_signedValue_eq (hfinite : x.isFinite = true) (hpositive : x.isNegative = false)
    (hfinite' : y.isFinite = true) (hpositive' : y.isNegative = false)
    (hsame : x.signedValue = y.signedValue) : x = y := by
  rw [signedValue_of_positive hpositive, signedValue_of_positive hpositive'] at hsame
  -- the order is strict, so different magnitudes have different numbers
  have hmagnitude : x.magnitude = y.magnitude := by
    rcases Nat.lt_trichotomy x.magnitude y.magnitude with hless | hmagnitude | hmore
    · exact absurd hsame (value_lt_value hfinite' hless).ne
    · exact hmagnitude
    · exact absurd hsame (value_lt_value hfinite hmore).ne'
  rw [← ofNat_magnitude hpositive, ← ofNat_magnitude hpositive', hmagnitude]

/-- If `q'` has a smaller nearest number than `q`, the middle of the two numbers separates
them. -/
theorem IsNearest.le_of_lt (hnearest : x.IsNearest q) (hnearest' : y.IsNearest q')
    (hless : y.signedValue < x.signedValue) :
    q' ≤ (x.signedValue + y.signedValue) / 2 ∧ (x.signedValue + y.signedValue) / 2 ≤ q := by
  have hnear := hnearest.nearest y hnearest'.finite
  have hnear' := hnearest'.nearest x hnearest.finite
  -- each of the two numbers is on its own side of the middle
  rw [← sq_le_sq] at hnear hnear'
  constructor
  · nlinarith only [hnear', hless]
  · nlinarith only [hnear, hless]

/-- The last bit of a significand is that of its magnitude. -/
theorem significand_mod_two (x : Binary64) : x.significand % 2 = x.magnitude % 2 := by
  simp only [significand, Nat.pow_eq]
  split <;> omega

/-- **There is one nearest number at most.**  Of two that are equally near both would be even,
but no number is between them, so one of the two is odd. -/
theorem IsNearest.unique (hnearest : x.IsNearest q) (hnearest' : y.IsNearest q) : x = y := by
  by_contra hdifferent
  -- the two are alike, so let `y` be the one with the smaller number
  wlog hless : y.signedValue < x.signedValue generalizing x y
  · have hsame : x.signedValue ≠ y.signedValue := fun hsame =>
      hdifferent (eq_of_signedValue_eq hnearest.finite hnearest.positive hnearest'.finite
        hnearest'.positive hsame)
    exact this hnearest' hnearest (Ne.symm hdifferent) (lt_of_le_of_ne (not_lt.mp hless) hsame)
  obtain ⟨hlow, hhigh⟩ := hnearest.le_of_lt hnearest' hless
  -- both are nearest to `q`, so neither is nearer than the other
  have htie : |q - x.signedValue| = |q - y.signedValue| :=
    le_antisymm (hnearest.nearest y hnearest'.finite) (hnearest'.nearest x hnearest.finite)
  have heven := hnearest.even y hnearest'.finite hless.ne htie
  have heven' := hnearest'.even x hnearest.finite hless.ne' htie.symm
  rw [significand_mod_two] at heven heven'
  have hvalue := signedValue_of_positive hnearest.positive
  have hvalue' := signedValue_of_positive hnearest'.positive
  have horder : y.magnitude < x.magnitude := by
    by_contra horder
    have := value_le_value hnearest'.finite (Nat.not_lt.mp horder)
    rw [hvalue, hvalue'] at hless
    linarith
  -- the number behind the smaller one is between the two, and nearer
  have hsmall : y.magnitude + 1 < infinityMagnitude :=
    Nat.lt_of_le_of_lt horder (isFinite_iff.mp hnearest.finite)
  have hmagnitude := magnitude_ofNat hsmall
  have hpositive := isNegative_ofNat hsmall
  have hfinite : isFinite ⟨UInt64.ofNat (y.magnitude + 1)⟩ = true := by
    rwa [isFinite_iff, hmagnitude]
  generalize (⟨UInt64.ofNat (y.magnitude + 1)⟩ : Binary64) = z at hmagnitude hpositive hfinite
  have habove : y.value < z.value := value_lt_value hfinite (by omega)
  have hbelow : z.value < x.value := value_lt_value hnearest.finite (by omega)
  have hnear := hnearest.nearest z hfinite
  rw [signedValue_of_positive hpositive, ← sq_le_sq] at hnear
  rw [hvalue, hvalue'] at hlow hhigh
  rw [hvalue] at hnear
  nlinarith only [hnear, hlow, hhigh, habove, hbelow]

/-- **Rounding keeps the order.** -/
theorem IsNearest.mono (hnearest : x.IsNearest q) (hnearest' : y.IsNearest q') (hle : q ≤ q') :
    x.signedValue ≤ y.signedValue := by
  by_contra hless
  obtain ⟨hlow, hhigh⟩ := hnearest.le_of_lt hnearest' (not_le.mp hless)
  obtain rfl : q = q' := by linarith
  exact hless (hnearest.unique hnearest' ▸ le_refl _)

/-! ## §4 What rounding finds -/

/-- In steps of an exponent a number of the format is a whole number, or its own exponent is
smaller and the number is short of the leading bit. -/
theorem scaled_value (y : Binary64) (e : Int) :
    (∃ j : Nat, y.value * 2 ^ (-e) = j) ∨ (-1074 < e ∧ y.value * 2 ^ (-e) < 2 ^ 52) := by
  have htwo : (2 : ℚ) ≠ 0 := by norm_num
  have hscaled : y.value * 2 ^ (-e) = y.significand * 2 ^ (y.exponent - e) := by
    rw [value, mul_assoc, ← zpow_add₀ htwo, sub_eq_add_neg]
  rw [hscaled]
  -- an exponent that is not below `e` leaves a power of two to multiply with
  by_cases hcoarse : e ≤ y.exponent
  · obtain ⟨n, hn⟩ : ∃ n : Nat, y.exponent - e = n := ⟨(y.exponent - e).toNat, by omega⟩
    refine .inl ⟨y.significand * 2 ^ n, ?_⟩
    rw [hn, zpow_natCast]
    push_cast
    rfl
  · refine .inr ⟨by have := y.exponent_ge; omega, ?_⟩
    have hshort : (y.significand : ℚ) < 2 ^ 53 := by exact_mod_cast y.significand_lt
    calc (y.significand : ℚ) * 2 ^ (y.exponent - e)
        ≤ y.significand * 2 ^ (-1 : Int) := by
          gcongr
          · norm_num
          · omega
      _ < 2 ^ 53 * 2 ^ (-1 : Int) := by gcongr
      _ = 2 ^ 52 := by norm_num

/-- Distances are compared in steps of an exponent. -/
theorem abs_sub_eq (a b : ℚ) (e : Int) :
    |a - b| = |a * 2 ^ (-e) - b * 2 ^ (-e)| * 2 ^ e := by
  have hstep : (0 : ℚ) < 2 ^ e := by positivity
  rw [← sub_mul, abs_mul, mul_assoc, zpow_neg, abs_of_pos (inv_pos.mpr hstep),
    inv_mul_cancel₀ hstep.ne', mul_one]

/-- The number that rounding finds is a whole number in steps of the rounding exponent, and the
last bit is that of the whole number. -/
theorem value_of_ofQuotient? (hnum : 0 < num) (hden : 0 < den)
    (hfound : ofQuotient? num den = some x) :
    let e := roundingExponent num den
    let k := roundHalfEven (num * 2 ^ (-e).toNat) (den * 2 ^ e.toNat)
    x.value * 2 ^ (-e) = k ∧ x.significand % 2 = k % 2 := by
  intro e k
  have hleast : -1074 ≤ e := Int.le_max_right _ _
  have hdivisor : 0 < den * 2 ^ e.toNat := Nat.mul_pos hden (Nat.two_pow_pos _)
  obtain ⟨hshort, hfull⟩ := significand_bounds hnum hden
  obtain ⟨habove, hbelow⟩ := roundHalfEven_near hdivisor (num * 2 ^ (-e).toNat)
  rw [scaled_div two_pos, Nat.cast_ofNat] at habove hbelow
  -- this is how rounding packs exponent and significand, carry included
  have hpacked : x.magnitude = (e + 1074).toNat * 2 ^ 52 + k := by
    rw [(of_ofQuotient? hfound).2.2, nearestMagnitude, if_neg hnum.ne']
    rfl
  have hmost : k ≤ 2 ^ 53 := by
    have : (k : ℚ) < 2 ^ 53 + 1 := by linarith
    have : k < 2 ^ 53 + 1 := by exact_mod_cast this
    omega
  have hleading : (e + 1074).toNat = 0 ∨ 2 ^ 52 ≤ k := by
    by_cases hnormal : -1074 < e
    · right
      have hlong := hfull hnormal
      have : (2 : ℚ) ^ 52 < k + 1 := by linarith
      have : 2 ^ 52 < k + 1 := by exact_mod_cast this
      omega
    · left
      omega
  obtain ⟨hvalue, hbit⟩ := value_of_packed hpacked hmost hleading
  refine ⟨?_, hbit⟩
  have hexponent : (((e + 1074).toNat : Nat) : Int) - 1074 = e := by omega
  have hstep : (2 : ℚ) ^ e ≠ 0 := by positivity
  rw [hvalue, hexponent, zpow_neg, mul_assoc, mul_inv_cancel₀ hstep, mul_one]

/-- **No number of the format is nearer**, and a tie is broken by the last bit. -/
theorem nearest_of_ofQuotient? (hden : 0 < den) (hfound : ofQuotient? num den = some x)
    (y : Binary64) :
    |(num : ℚ) / den - x.value| ≤ |(num : ℚ) / den - y.value| ∧
      (y.value ≠ x.value → |(num : ℚ) / den - x.value| = |(num : ℚ) / den - y.value| →
        x.significand % 2 = 0) := by
  by_cases hzero : num = 0
  · -- zero is a number of the format
    have hmagnitude : x.magnitude = 0 := by
      rw [(of_ofQuotient? hfound).2.2, nearestMagnitude, if_pos hzero]
    have hvalue := value_of_zero hmagnitude
    have hbit := x.significand_mod_two
    rw [hmagnitude] at hbit
    rw [hvalue, hzero, Nat.cast_zero, zero_div, sub_zero, abs_zero]
    exact ⟨abs_nonneg _, fun _ _ => hbit⟩
  have hnum : 0 < num := Nat.pos_of_ne_zero hzero
  obtain ⟨hvalue, hbit⟩ := value_of_ofQuotient? hnum hden hfound
  have hlong := (significand_bounds hnum hden).2
  generalize roundingExponent num den = e at hvalue hbit hlong
  have hdivisor : 0 < den * 2 ^ e.toNat := Nat.mul_pos hden (Nat.two_pow_pos _)
  have hquotient := scaled_div two_pos num den e
  rw [Nat.cast_ofNat] at hquotient
  have hstep : (0 : ℚ) < 2 ^ e := by positivity
  -- all distances are taken in steps of the rounding exponent
  rw [abs_sub_eq _ x.value e, abs_sub_eq _ y.value e, hvalue, ← hquotient,
    mul_le_mul_iff_left₀ hstep, mul_left_inj' hstep.ne', hbit]
  rcases scaled_value y e with ⟨j, hwhole⟩ | ⟨hnormal, hbelow⟩
  · rw [hwhole]
    refine ⟨roundHalfEven_nearest hdivisor _ j,
      fun hother => even_roundHalfEven_of_tie hdivisor _ ?_⟩
    -- other numbers are other multiples of the step
    rintro rfl
    exact hother (mul_right_cancel₀ (zpow_ne_zero (-e) two_ne_zero) (hwhole.trans hvalue.symm))
  · -- the leading bit alone is a whole number that is nearer
    have hleading := roundHalfEven_nearest hdivisor (num * 2 ^ (-e).toNat) (2 ^ 52)
    have hleast := hlong hnormal
    rw [hquotient] at hleading ⊢
    have hnearer : |(num : ℚ) / den * 2 ^ (-e) - (2 ^ 52 : Nat)|
        < |(num : ℚ) / den * 2 ^ (-e) - y.value * 2 ^ (-e)| := by
      push_cast
      rw [abs_of_nonneg (by linarith), abs_of_nonneg (by linarith)]
      linarith
    have hstrict := lt_of_le_of_lt hleading hnearer
    exact ⟨hstrict.le, fun _ htie => absurd htie hstrict.ne⟩

/-- What holds of the numbers without a sign holds of all, as the others are farther away than
zero. -/
theorem isNearest_of_values (hfinite : x.isFinite = true) (hpositive : x.isNegative = false)
    (hnonneg : 0 ≤ q)
    (hnear : ∀ y : Binary64, y.isFinite = true → |q - x.value| ≤ |q - y.value| ∧
      (y.value ≠ x.value → |q - x.value| = |q - y.value| → x.significand % 2 = 0)) :
    x.IsNearest q := by
  have hvalue := signedValue_of_positive hpositive
  have hzero : |q - x.value| ≤ q := by
    have := (hnear ⟨0⟩ rfl).1
    rwa [value_of_zero (x := ⟨0⟩) rfl, sub_zero, abs_of_nonneg hnonneg] at this
  -- a pattern with a sign is zero, or is farther away
  have hsigned : ∀ y : Binary64, y.signedValue = y.value ∨ q < |q - y.signedValue| := by
    intro y
    unfold signedValue
    split
    · rcases eq_or_lt_of_le y.value_nonneg with hnone | hsome
      · exact .inl (by rw [← hnone, neg_zero])
      · refine .inr ?_
        rw [sub_neg_eq_add, abs_of_nonneg (by linarith)]
        linarith
    · exact .inl rfl
  refine ⟨hfinite, hpositive, ?_, ?_⟩
  · intro y hy
    rw [hvalue]
    rcases hsigned y with hsame | hfar
    · rw [hsame]
      exact (hnear y hy).1
    · linarith
  · intro y hy hother htie
    rw [hvalue] at hother htie
    rcases hsigned y with hsame | hfar
    · rw [hsame] at hother htie
      exact (hnear y hy).2 hother htie
    · linarith

/-- **Rounding finds the nearest number.** -/
theorem isNearest_of_ofQuotient? (hden : 0 < den) (hfound : ofQuotient? num den = some x) :
    x.IsNearest ((num : ℚ) / den) := by
  obtain ⟨hfinite, hpositive, -⟩ := of_ofQuotient? hfound
  exact isNearest_of_values hfinite hpositive (by positivity)
    fun y _ => nearest_of_ofQuotient? hden hfound y

/-! ## §5 The largest number -/

theorem value_largest : largest.value = (2 ^ 53 - 1) * 2 ^ (971 : Int) := by
  have hsignificand : largest.significand = 2 ^ 53 - 1 := by decide
  have hexponent : largest.exponent = 971 := by decide
  rw [value, hsignificand, hexponent]
  norm_num

theorem value_largest_lt : largest.value < overflowLimit := by
  have hstep : (0 : ℚ) < 2 ^ (970 : Int) := by positivity
  have hdouble : (2 : ℚ) ^ (971 : Int) = 2 ^ (970 : Int) * 2 := zpow_add_one₀ (by norm_num) 970
  rw [value_largest, overflowLimit_eq, hdouble]
  generalize (2 : ℚ) ^ (970 : Int) = unit at hstep
  linarith

/-- For a number that is too large the largest one is the nearest. -/
theorem isNearest_largest (hlarge : overflowLimit ≤ q) : largest.IsNearest q := by
  have hfinite : largest.isFinite = true := by decide
  have hless : largest.value < q := lt_of_lt_of_le value_largest_lt hlarge
  have hnonneg : 0 ≤ q := le_trans largest.value_nonneg hless.le
  refine isNearest_of_values hfinite (by decide) hnonneg ?_
  intro y hy
  -- all others are below it
  have hbelow : y.value ≤ largest.value := by
    have hlast : largest.magnitude + 1 = infinityMagnitude := by decide
    have hsmall := isFinite_iff.mp hy
    exact value_le_value hfinite (by omega)
  -- and below `q`, so the distance shrinks as the number grows
  rw [abs_of_nonneg (by linarith), abs_of_nonneg (by linarith)]
  exact ⟨by linarith, fun hother htie => absurd (by linarith) hother⟩

end Binary64

end MiniPascal
