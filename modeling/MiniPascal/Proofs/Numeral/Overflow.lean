import MiniPascal.Proofs.Numeral.Rounding

/-!
# Where Numbers Become Too Large

Beyond the largest number of the format the next one would be `2 ^ 1024`.  Half of the way
there is `2 ^ 1024 - 2 ^ 970`, and rounding goes past the largest number from this point on: the
point itself is a tie, and the significand of the largest number is odd.

- `succ_le_roundHalfEven_iff`: where rounding goes up from an odd number;
- `ofQuotient?_eq_none_iff`: where it goes past the largest number of the format.
-/

namespace MiniPascal

/-! ## §1 Ties above odd numbers -/

/-- **Rounding goes up from an odd number** at one half, as the tie goes to the even number
above. -/
theorem succ_le_roundHalfEven_iff {den k : Nat} (hden : 0 < den) (hodd : k % 2 = 1) (num : Nat) :
    k + 1 ≤ roundHalfEven num den ↔ (2 * k + 1) * den ≤ 2 * num := by
  have hdivided := Nat.div_add_mod num den
  have hsmall := Nat.mod_lt num hden
  have hproduct : (2 * k + 1) * den = 2 * (den * k) + den := by ring
  rw [hproduct]
  unfold roundHalfEven
  dsimp only
  generalize num / den = q at *
  generalize num % den = r at *
  -- the quotient without its remainder is below `k`, is `k`, or is above it
  rcases Nat.lt_trichotomy q k with hbelow | rfl | habove
  · -- not even the next whole number reaches
    have hfits : den * (q + 1) ≤ den * k := Nat.mul_le_mul_left den hbelow
    rw [Nat.mul_add] at hfits
    constructor
    · intro hup
      split at hup
      · omega
      · split at hup <;> omega
    · intro hreached
      omega
  · -- the remainder decides
    constructor
    · intro hup
      split at hup
      · omega
      · omega
    · intro hreached
      split
      · omega
      · split <;> omega
  · -- the next whole number is reached without the remainder
    have hfits : den * (k + 1) ≤ den * q := Nat.mul_le_mul_left den habove
    rw [Nat.mul_add] at hfits
    constructor
    · intro _
      omega
    · intro _
      split
      · omega
      · split <;> omega

/-- The nearest whole number is at most one half away. -/
theorem roundHalfEven_near {den : Nat} (hden : 0 < den) (num : Nat) :
    (roundHalfEven num den : ℚ) ≤ (num : ℚ) / den + 1 / 2 ∧
      (num : ℚ) / den ≤ roundHalfEven num den + 1 / 2 := by
  obtain ⟨hhigh, hlow⟩ := roundHalfEven_bounds num den hden
  have hpos : (0 : ℚ) < den := by exact_mod_cast hden
  have hhigh : 2 * (num : ℚ) ≤ (2 * roundHalfEven num den + 1) * den := by exact_mod_cast hhigh
  have hlow : 2 * (roundHalfEven num den : ℚ) * den ≤ 2 * num + den := by exact_mod_cast hlow
  constructor
  · rw [← sub_le_iff_le_add, le_div_iff₀ hpos]
    linarith
  · rw [div_le_iff₀ hpos]
    linarith

namespace Binary64

variable {num den : Nat}

/-! ## §2 The limit of the format -/

/-- One half of the way from the largest number of the format to the next power of two. -/
def overflowLimit : ℚ := 2 ^ 1024 - 2 ^ 970

theorem overflowLimit_eq : overflowLimit = (2 ^ 54 - 1) * 2 ^ (970 : Int) := by
  rw [overflowLimit, show 1024 = 54 + 970 from rfl, pow_add, sub_mul, one_mul, zpow_ofNat]

/-- Numbers below `2 ^ 1023` are small enough, whatever they are rounded to. -/
theorem lt_overflowLimit {q : ℚ} (hsmall : Int.log 2 q < 1023) : q < overflowLimit := by
  have hhigh := Int.lt_zpow_succ_log_self (b := 2) (by decide) q
  push_cast at hhigh
  rw [overflowLimit_eq]
  calc q < 2 ^ (Int.log 2 q + 1) := hhigh
    _ ≤ 2 ^ ((53 : Int) + 970) := zpow_le_zpow_right₀ (by norm_num) (by omega)
    _ = 2 ^ (53 : Int) * 2 ^ (970 : Int) := zpow_add₀ (by norm_num) 53 970
    _ ≤ (2 ^ 54 - 1) * 2 ^ (970 : Int) := by
      gcongr
      norm_num

/-- Numbers from `2 ^ 1024` on are too large in any case. -/
theorem overflowLimit_le {q : ℚ} (hpositive : 0 < q) (hlarge : 1023 < Int.log 2 q) :
    overflowLimit ≤ q := by
  have hlow := Int.zpow_log_le_self (b := 2) (by decide) hpositive
  push_cast at hlow
  rw [overflowLimit_eq]
  calc (2 ^ 54 - 1) * 2 ^ (970 : Int) ≤ (2 : ℚ) ^ (54 : Int) * 2 ^ (970 : Int) := by
        gcongr
        norm_num
    _ = 2 ^ ((54 : Int) + 970) := (zpow_add₀ (by norm_num) 54 970).symm
    _ ≤ 2 ^ Int.log 2 q := zpow_le_zpow_right₀ (by norm_num) (by omega)
    _ ≤ q := hlow

/-- The power of two below a quotient bounds its significand, which has fifty-three bits at
most, and no fewer unless the exponent is the least one. -/
theorem significand_bounds (hnum : 0 < num) (hden : 0 < den) :
    let e := roundingExponent num den
    (num : ℚ) / den * 2 ^ (-e) < 2 ^ 53 ∧
      (-1074 < e → 2 ^ 52 ≤ (num : ℚ) / den * 2 ^ (-e)) := by
  intro e
  have hexponent : e = max (Int.log 2 ((num : ℚ) / den) - 52) (-1074) := by
    rw [← floorLog2_eq_log hnum hden]
    rfl
  have hpositive : (0 : ℚ) < (num : ℚ) / den := by positivity
  have hlow := Int.zpow_log_le_self (b := 2) (by decide) hpositive
  have hhigh := Int.lt_zpow_succ_log_self (b := 2) (by decide) ((num : ℚ) / den)
  push_cast at hlow hhigh
  have hstep : (0 : ℚ) < 2 ^ e := by positivity
  rw [zpow_neg, ← div_eq_mul_inv, div_lt_iff₀ hstep, le_div_iff₀ hstep]
  -- the exponent is fifty-two places below the leading bit, and never below the least one
  constructor
  · calc (num : ℚ) / den < 2 ^ (Int.log 2 ((num : ℚ) / den) + 1) := hhigh
      _ ≤ 2 ^ (53 + e) := zpow_le_zpow_right₀ (by norm_num) (by omega)
      _ = 2 ^ 53 * 2 ^ e := zpow_add₀ (by norm_num) 53 e
  · intro hnormal
    calc (2 : ℚ) ^ 52 * 2 ^ e = 2 ^ (52 + e) := (zpow_add₀ (by norm_num) 52 e).symm
      _ ≤ 2 ^ Int.log 2 ((num : ℚ) / den) := zpow_le_zpow_right₀ (by norm_num) (by omega)
      _ ≤ (num : ℚ) / den := hlow

/-- The significand is rounded up to the next power of two from one half below it on. -/
theorem two_pow_le_roundHalfEven_iff (hden : 0 < den) (num : Nat) (e : Int) :
    2 ^ 53 ≤ roundHalfEven (num * 2 ^ (-e).toNat) (den * 2 ^ e.toNat) ↔
      (2 ^ 54 - 1) * 2 ^ (e - 1) ≤ (num : ℚ) / den := by
  have hdivisor : 0 < den * 2 ^ e.toNat := Nat.mul_pos hden (Nat.two_pow_pos _)
  have hpos : (0 : ℚ) < (den * 2 ^ e.toNat : Nat) := by exact_mod_cast hdivisor
  have hstep : (0 : ℚ) < 2 ^ e := by positivity
  -- the significand one below the power of two is odd, so the tie goes up
  have hodd : (2 ^ 53 - 1) % 2 = 1 := rfl
  have htie := succ_le_roundHalfEven_iff hdivisor hodd (num * 2 ^ (-e).toNat)
  have hquotient := scaled_div two_pos num den e
  rw [Nat.cast_ofNat] at hquotient
  calc 2 ^ 53 ≤ roundHalfEven (num * 2 ^ (-e).toNat) (den * 2 ^ e.toNat)
      ↔ (2 ^ 54 - 1) * (den * 2 ^ e.toNat) ≤ 2 * (num * 2 ^ (-e).toNat) := htie
    _ ↔ (2 ^ 54 - 1) * ((den * 2 ^ e.toNat : Nat) : ℚ) ≤ 2 * (num * 2 ^ (-e).toNat : Nat) := by
        rw [← Nat.cast_le (α := ℚ), Nat.cast_mul, Nat.cast_mul 2]
        norm_num
    _ ↔ (2 ^ 54 - 1) / 2 ≤ (num : ℚ) / den * 2 ^ (-e) := by
        rw [← hquotient, le_div_iff₀ hpos, div_mul_eq_mul_div, div_le_iff₀ (by norm_num),
          mul_comm 2]
    _ ↔ (2 ^ 54 - 1) * 2 ^ (e - 1) ≤ (num : ℚ) / den := by
        rw [zpow_neg, ← div_eq_mul_inv, le_div_iff₀ hstep, zpow_sub_one₀ (by norm_num),
          div_mul_eq_mul_div, ← div_eq_mul_inv, mul_div_assoc]

/-- **Where numbers become too large.** -/
theorem infinityMagnitude_le_iff (hden : 0 < den) (num : Nat) :
    infinityMagnitude ≤ nearestMagnitude num den ↔ overflowLimit ≤ (num : ℚ) / den := by
  have hwhole : infinityMagnitude = 2047 * 2 ^ 52 := rfl
  by_cases hzero : num = 0
  · -- zero is not too large
    have hlimit : ¬ overflowLimit ≤ 0 := not_le.mpr (lt_overflowLimit (by simp))
    simp only [hzero, nearestMagnitude, if_true, hwhole, Nat.cast_zero, zero_div, hlimit, iff_false]
    decide
  have hnum : 0 < num := Nat.pos_of_ne_zero hzero
  have hpositive : (0 : ℚ) < (num : ℚ) / den := by positivity
  have hexponent : roundingExponent num den = max (Int.log 2 ((num : ℚ) / den) - 52) (-1074) := by
    rw [roundingExponent, floorLog2_eq_log hnum hden]
  obtain ⟨hshort, hlong⟩ := significand_bounds hnum hden
  have hdivisor : 0 < den * 2 ^ (roundingExponent num den).toNat :=
    Nat.mul_pos hden (Nat.two_pow_pos _)
  have htie := two_pow_le_roundHalfEven_iff hden num (roundingExponent num den)
  obtain ⟨habove, hbelow⟩ :=
    roundHalfEven_near hdivisor (num * 2 ^ (-roundingExponent num den).toNat)
  rw [scaled_div two_pos, Nat.cast_ofNat] at habove hbelow
  unfold nearestMagnitude
  rw [if_neg hzero, hwhole]
  simp only [Nat.pow_eq]
  generalize roundHalfEven _ _ = f at htie habove hbelow ⊢
  -- the power of two below the quotient is that of the largest number, a lower or a higher one
  rcases lt_trichotomy (Int.log 2 ((num : ℚ) / den)) 1023 with hsmall | hsame | hlarge
  · -- even a carry stays within the format
    have hmost : (f : ℚ) < 2 ^ 53 + 1 := by linarith
    have hmost : f < 2 ^ 53 + 1 := by exact_mod_cast hmost
    refine iff_of_false ?_ (not_le.mpr (lt_overflowLimit hsmall))
    omega
  · -- the significand reaches the next power of two, or does not
    have hlast : roundingExponent num den = 971 := by omega
    rw [hlast] at htie ⊢
    have hreached : 2047 * 2 ^ 52 ≤ ((971 : Int) + 1074).toNat * 2 ^ 52 + f ↔ 2 ^ 53 ≤ f := by
      omega
    rw [hreached, htie, overflowLimit_eq]
    rfl
  · -- the exponent alone is past the format, even with the smallest significand
    have hleast : (2 ^ 52 : ℚ) < f + 1 := by
      have hnormal := hlong (by omega)
      linarith
    have hleast : 2 ^ 52 < f + 1 := by exact_mod_cast hleast
    refine iff_of_true ?_ (overflowLimit_le hpositive hlarge)
    omega

/-- **No number of the format is found** for what is too large, and only for that. -/
theorem ofQuotient?_eq_none_iff (hden : 0 < den) (num : Nat) :
    ofQuotient? num den = none ↔ overflowLimit ≤ (num : ℚ) / den := by
  rw [← infinityMagnitude_le_iff hden, ofQuotient?]
  simp

end Binary64

end MiniPascal
