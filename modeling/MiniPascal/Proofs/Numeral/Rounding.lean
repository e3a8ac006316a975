import MiniPascal.Numeral.Binary64
import Mathlib.Algebra.Order.Field.Power
import Mathlib.Data.Int.Log
import Mathlib.Data.Rat.Floor
import Mathlib.Tactic.FieldSimp
import Mathlib.Tactic.Linarith
import Mathlib.Tactic.Positivity
import Mathlib.Tactic.Ring

/-!
# Rounding Depends on the Number Only

`Binary64.ofQuotient?` is given a numerator and a denominator, and what it finds should not
depend on how a number is written as a quotient.  Here the numbers are rational ones.

- `ofQuotient?_congr`: equal quotients round alike;
- `nearestMagnitude_self`: a number of the format is its own rounding.

Both rest on the power of two below a quotient, which §2 finds for any base.
-/

namespace MiniPascal

namespace Binary64

/-! ## §1 Magnitudes as patterns -/

variable {m num den num' den' : Nat} {x : Binary64}

theorem infinityMagnitude_lt : infinityMagnitude < 2 ^ 63 := by decide

theorem isFinite_iff : x.isFinite = true ↔ x.magnitude < infinityMagnitude :=
  decide_eq_true_iff

theorem toNat_ofNat_of_lt (hsmall : m < infinityMagnitude) : (UInt64.ofNat m).toNat = m := by
  have := infinityMagnitude_lt
  apply UInt64.toNat_ofNat_of_lt'
  simp only [UInt64.size]
  omega

theorem magnitude_ofNat (hsmall : m < infinityMagnitude) :
    magnitude ⟨UInt64.ofNat m⟩ = m := by
  have := infinityMagnitude_lt
  simp only [magnitude, toNat_ofNat_of_lt hsmall, Nat.pow_eq]
  exact Nat.mod_eq_of_lt (by omega)

theorem isNegative_ofNat (hsmall : m < infinityMagnitude) :
    isNegative ⟨UInt64.ofNat m⟩ = false := by
  have := infinityMagnitude_lt
  simp only [isNegative, toNat_ofNat_of_lt hsmall, Nat.pow_eq, decide_eq_false_iff_not]
  omega

/-- Without a sign the magnitude is all of a pattern. -/
theorem toNat_bits (hpositive : x.isNegative = false) : x.bits.toNat = x.magnitude := by
  simp only [isNegative, Nat.pow_eq, decide_eq_false_iff_not, Nat.not_le] at hpositive
  simp only [magnitude, Nat.pow_eq]
  exact (Nat.mod_eq_of_lt hpositive).symm

theorem ofNat_magnitude (hpositive : x.isNegative = false) :
    (⟨UInt64.ofNat x.magnitude⟩ : Binary64) = x := by
  rw [← toNat_bits hpositive, UInt64.ofNat_toNat]

/-- **What rounding finds** is finite, has no sign, and has the nearest magnitude. -/
theorem of_ofQuotient? (hfound : ofQuotient? num den = some x) :
    x.isFinite = true ∧ x.isNegative = false ∧ x.magnitude = nearestMagnitude num den := by
  unfold ofQuotient? at hfound
  dsimp only at hfound
  split at hfound
  · rename_i hsmall
    obtain rfl := Option.some.inj hfound
    have hsame := magnitude_ofNat hsmall
    refine ⟨?_, isNegative_ofNat hsmall, hsame⟩
    simp [isFinite, hsame, hsmall]
  · cases hfound

/-! ## §2 The power below a quotient -/

section Powers

variable {b : Nat}

/-- A power of the base may be multiplied out of a comparison, on the side on which its
exponent is not negative. -/
theorem zpow_le_div_iff (hbase : 0 < b) (hden : 0 < den) (e : Int) :
    (b : ℚ) ^ e ≤ (num : ℚ) / den ↔ den * b ^ e.toNat ≤ num * b ^ (-e).toNat := by
  have hpos : (0 : ℚ) < den := by exact_mod_cast hden
  rw [le_div_iff₀ hpos]
  -- one of the two powers is one, by the sign of the exponent
  obtain ⟨n, rfl | rfl⟩ := e.eq_nat_or_neg
  · simp only [zpow_natCast, Int.toNat_natCast, Int.toNat_neg_natCast, pow_zero, mul_one]
    rw [mul_comm]
    exact_mod_cast Iff.rfl
  · have hpower : (0 : ℚ) < (b : ℚ) ^ n := by positivity
    simp only [zpow_neg, zpow_natCast, neg_neg, Int.toNat_natCast, Int.toNat_neg_natCast, pow_zero,
      mul_one]
    rw [inv_mul_le_iff₀ hpower, mul_comm]
    exact_mod_cast Iff.rfl

/-- The lengths of numerator and denominator leave two candidates for the power below their
quotient. -/
theorem log_div_bounds (hbase : 1 < b) (hnum : 0 < num) (hden : 0 < den) :
    (Nat.log b num : Int) - Nat.log b den - 1 ≤ Int.log b ((num : ℚ) / den) ∧
      Int.log b ((num : ℚ) / den) ≤ (Nat.log b num : Int) - Nat.log b den := by
  have hb : (1 : ℚ) < b := by exact_mod_cast hbase
  have hb0 : (b : ℚ) ≠ 0 := by positivity
  have hpos : (0 : ℚ) < (num : ℚ) / den := by positivity
  have hposDen : (0 : ℚ) < den := by exact_mod_cast hden
  -- each of the two numbers lies between two powers of the base
  have hlowNum : (b : ℚ) ^ Nat.log b num ≤ num := by exact_mod_cast Nat.pow_log_le_self b (by omega)
  have hhighNum : (num : ℚ) < (b : ℚ) ^ (Nat.log b num + 1) := by
    exact_mod_cast Nat.lt_pow_succ_log_self hbase num
  have hlowDen : (b : ℚ) ^ Nat.log b den ≤ den := by exact_mod_cast Nat.pow_log_le_self b (by omega)
  have hhighDen : (den : ℚ) < (b : ℚ) ^ (Nat.log b den + 1) := by
    exact_mod_cast Nat.lt_pow_succ_log_self hbase den
  constructor
  · -- the least numerator over more than the greatest denominator
    rw [← Int.zpow_le_iff_le_log hbase hpos, le_div_iff₀ hposDen]
    calc (b : ℚ) ^ ((Nat.log b num : Int) - Nat.log b den - 1) * den
        ≤ (b : ℚ) ^ ((Nat.log b num : Int) - Nat.log b den - 1)
            * (b : ℚ) ^ (Nat.log b den + 1) := by gcongr
      _ = (b : ℚ) ^ Nat.log b num := by
          rw [← zpow_natCast, ← zpow_natCast, ← zpow_add₀ hb0]
          congr 1
          push_cast
          ring
      _ ≤ num := hlowNum
  · -- more than the greatest numerator over the least denominator
    rw [← Int.lt_add_one_iff, ← Int.lt_zpow_iff_log_lt hbase hpos, div_lt_iff₀ hposDen]
    calc (num : ℚ) < (b : ℚ) ^ (Nat.log b num + 1) := hhighNum
      _ = (b : ℚ) ^ ((Nat.log b num : Int) - Nat.log b den + 1) * (b : ℚ) ^ Nat.log b den := by
          rw [← zpow_natCast, ← zpow_natCast, ← zpow_add₀ hb0]
          congr 1
          push_cast
          ring
      _ ≤ (b : ℚ) ^ ((Nat.log b num : Int) - Nat.log b den + 1) * den := by gcongr

/-- One more comparison decides between the candidates for the power below a quotient. -/
theorem log_div_eq (hbase : 1 < b) (hnum : 0 < num) (hden : 0 < den) :
    Int.log b ((num : ℚ) / den)
      = if den * b ^ ((Nat.log b num : Int) - Nat.log b den).toNat
            ≤ num * b ^ (-((Nat.log b num : Int) - Nat.log b den)).toNat
        then (Nat.log b num : Int) - Nat.log b den
        else (Nat.log b num : Int) - Nat.log b den - 1 := by
  have hpos : (0 : ℚ) < (num : ℚ) / den := by positivity
  obtain ⟨hlow, hhigh⟩ := log_div_bounds hbase hnum hden
  have hdecides := @zpow_le_div_iff num den b (by omega) hden
    ((Nat.log b num : Int) - Nat.log b den)
  rw [Int.zpow_le_iff_le_log hbase hpos] at hdecides
  split
  · rename_i hfits
    exact le_antisymm hhigh (hdecides.mpr hfits)
  · rename_i hlarge
    have hless := mt hdecides.mp hlarge
    omega

/-- Scaling by a power of the base moves the power below a number. -/
theorem log_scaled (hbase : 1 < b) {n : Nat} (hn : 0 < n) (e : Int) :
    Int.log b ((n : ℚ) * (b : ℚ) ^ e) = Nat.log b n + e := by
  have hb0 : (b : ℚ) ≠ 0 := by positivity
  have hpos : (0 : ℚ) < (n : ℚ) * (b : ℚ) ^ e := by positivity
  have hlow : (b : ℚ) ^ Nat.log b n ≤ n := by exact_mod_cast Nat.pow_log_le_self b (by omega)
  have hhigh : (n : ℚ) < (b : ℚ) ^ (Nat.log b n + 1) := by
    exact_mod_cast Nat.lt_pow_succ_log_self hbase n
  -- the bounds of a number are scaled with it, and the logarithm is found between them
  have hlower : (b : ℚ) ^ ((Nat.log b n : Int) + e) ≤ (n : ℚ) * (b : ℚ) ^ e := by
    rw [zpow_add₀ hb0, zpow_natCast]
    gcongr
  have hupper : (n : ℚ) * (b : ℚ) ^ e < (b : ℚ) ^ ((Nat.log b n : Int) + e + 1) := by
    rw [add_right_comm, zpow_add₀ hb0]
    gcongr
    exact_mod_cast hhigh
  rw [Int.zpow_le_iff_le_log hbase hpos] at hlower
  rw [Int.lt_zpow_iff_log_lt hbase hpos] at hupper
  omega

end Powers

/-- The exponent that rounding starts from is that of the power of two below the
quotient. -/
theorem floorLog2_eq_log (hnum : 0 < num) (hden : 0 < den) :
    floorLog2 num den = Int.log 2 ((num : ℚ) / den) := by
  rw [log_div_eq (by decide) hnum hden]
  simp only [floorLog2, Nat.log2_eq_log_two, Nat.pow_eq]

/-! ## §3 Equal quotients round alike -/

theorem roundHalfEven_mul {c : Nat} (hc : 0 < c) (num den : Nat) :
    roundHalfEven (c * num) (c * den) = roundHalfEven num den := by
  -- quotients stay the same, remainders are multiplied, and so are what they are compared to
  have hdouble : 2 * (c * (num % den)) = c * (2 * (num % den)) := by ring
  simp only [roundHalfEven, Nat.mul_div_mul_left _ _ hc, Nat.mul_mod_mul_left, hdouble,
    Nat.mul_lt_mul_left hc]

theorem nearestMagnitude_mul {c : Nat} (hc : 0 < c) (hden : 0 < den) :
    nearestMagnitude (c * num) (c * den) = nearestMagnitude num den := by
  unfold nearestMagnitude
  by_cases hnone : num = 0
  · simp [hnone]
  · have hsome : c * num ≠ 0 := Nat.mul_ne_zero (by omega) hnone
    have hsame : ((c * num : Nat) : ℚ) / (c * den : Nat) = (num : ℚ) / den := by
      have : (c : ℚ) ≠ 0 := by positivity
      push_cast
      exact mul_div_mul_left _ _ this
    -- the exponent is that of the quotient, and the same for both
    have hexponent : roundingExponent (c * num) (c * den) = roundingExponent num den := by
      rw [roundingExponent, roundingExponent, floorLog2_eq_log (by omega) (Nat.mul_pos hc hden),
        floorLog2_eq_log (by omega) hden, hsame]
    simp only [hnone, hsome, if_false, hexponent, Nat.mul_assoc, roundHalfEven_mul hc]

/-- **Equal quotients have one nearest magnitude.** -/
theorem nearestMagnitude_congr (hden : 0 < den) (hden' : 0 < den')
    (hsame : (num : ℚ) / den = (num' : ℚ) / den') :
    nearestMagnitude num den = nearestMagnitude num' den' := by
  have hne : (den : ℚ) ≠ 0 := by positivity
  have hne' : (den' : ℚ) ≠ 0 := by positivity
  rw [div_eq_div_iff hne hne'] at hsame
  -- both quotients are brought to the product of the denominators
  have hcrossed : den' * num = den * num' := by
    have hcrossed : num * den' = num' * den := by exact_mod_cast hsame
    linarith
  calc nearestMagnitude num den
      = nearestMagnitude (den' * num) (den' * den) := (nearestMagnitude_mul hden' hden).symm
    _ = nearestMagnitude (den * num') (den * den') := by rw [hcrossed, Nat.mul_comm den' den]
    _ = nearestMagnitude num' den' := nearestMagnitude_mul hden hden'

theorem ofQuotient?_congr (hden : 0 < den) (hden' : 0 < den')
    (hsame : (num : ℚ) / den = (num' : ℚ) / den') :
    ofQuotient? num den = ofQuotient? num' den' := by
  rw [ofQuotient?, ofQuotient?, nearestMagnitude_congr hden hden' hsame]

/-! ## §4 Numbers of the format -/

/-- The absolute value of a finite number. -/
def value (x : Binary64) : ℚ := x.significand * 2 ^ x.exponent

/-- A whole number scaled by a power is a quotient with one of the two powers in it. -/
theorem scaled_eq_div {b : Nat} (hbase : 0 < b) (n : Nat) (e : Int) :
    ((n * b ^ e.toNat : Nat) : ℚ) / ((b ^ (-e).toNat : Nat) : ℚ) = n * (b : ℚ) ^ e := by
  obtain ⟨k, rfl | rfl⟩ := e.eq_nat_or_neg
  · simp
  · have hpower : (b : ℚ) ^ k ≠ 0 := by positivity
    simp [div_eq_mul_inv]

/-- A quotient counted in steps of a power of the base. -/
theorem scaled_div {b : Nat} (hbase : 0 < b) (num den : Nat) (e : Int) :
    ((num * b ^ (-e).toNat : Nat) : ℚ) / (den * b ^ e.toNat : Nat)
      = (num : ℚ) / den * (b : ℚ) ^ (-e) := by
  have hscaled := scaled_eq_div hbase 1 (-e)
  rw [neg_neg] at hscaled
  push_cast at hscaled ⊢
  rw [one_mul, one_mul] at hscaled
  rw [mul_div_mul_comm, hscaled]

theorem denominator_pos (x : Binary64) : 0 < x.denominator := by
  simp [denominator, Nat.pow_eq]

theorem numerator_div_denominator (x : Binary64) :
    (x.numerator : ℚ) / x.denominator = x.value := by
  simp only [numerator, denominator, Nat.pow_eq, value]
  exact_mod_cast scaled_eq_div (by decide) x.significand x.exponent

theorem roundHalfEven_of_dvd {n den : Nat} (hden : 0 < den) : roundHalfEven (n * den) den = n := by
  simp [roundHalfEven, Nat.mul_div_cancel _ hden, hden]

/-- The significand has fifty-three bits, or fewer at the least exponent. -/
theorem significand_cases (hfinite : x.isFinite = true) (hnonzero : x.magnitude ≠ 0) :
    0 < x.significand ∧ x.significand < 2 ^ 53 ∧ -1074 ≤ x.exponent ∧
      (x.exponent = -1074 ∨ 2 ^ 52 ≤ x.significand) ∧
      (x.exponent + 1074).toNat * 2 ^ 52 + x.significand = x.magnitude := by
  have hbound : x.magnitude < 2047 * 2 ^ 52 := isFinite_iff.mp hfinite
  have hscale : x.exponent = (max (x.magnitude / 2 ^ 52) 1 : Nat) - 1075 := rfl
  by_cases hsubnormal : x.magnitude / 2 ^ 52 = 0
  · have hdigits : x.significand = x.magnitude % 2 ^ 52 := if_pos hsubnormal
    omega
  · have hdigits : x.significand = 2 ^ 52 + x.magnitude % 2 ^ 52 := if_neg hsubnormal
    omega

theorem value_pos (hfinite : x.isFinite = true) (hnonzero : x.magnitude ≠ 0) : 0 < x.value := by
  have := (significand_cases hfinite hnonzero).1
  simp only [value]
  positivity

/-- **Numbers of the format stay as they are.** -/
theorem nearestMagnitude_self (hfinite : x.isFinite = true) :
    nearestMagnitude x.numerator x.denominator = x.magnitude := by
  unfold nearestMagnitude
  by_cases hzero : x.magnitude = 0
  · have hnone : x.numerator = 0 := by
      simp [numerator, significand, biasedExponent, hzero]
    rw [if_pos hnone, hzero]
  · obtain ⟨hpos, hbits, hleast, hfull, hpacked⟩ := significand_cases hfinite hzero
    have hsome : 0 < x.numerator := by simp [numerator, Nat.pow_eq, hpos]
    -- the power of two below the number is as many places up as the significand is long
    have hlog : Int.log 2 x.value = Nat.log 2 x.significand + x.exponent := by
      exact_mod_cast log_scaled (b := 2) (by decide) hpos x.exponent
    have hexponent : roundingExponent x.numerator x.denominator = x.exponent := by
      have hhigh : Nat.log 2 x.significand < 53 := Nat.log_lt_of_lt_pow (by omega) hbits
      have hlow : x.exponent = -1074 ∨ 52 ≤ Nat.log 2 x.significand :=
        hfull.imp_right fun hfull => (Nat.le_log_iff_pow_le (by decide) (by omega)).mpr hfull
      rw [roundingExponent, floorLog2_eq_log hsome x.denominator_pos, numerator_div_denominator,
        hlog]
      omega
    -- in steps of its own exponent the number is its significand, and nothing is rounded off
    have hexact : x.numerator * 2 ^ (-x.exponent).toNat
        = x.significand * (x.denominator * 2 ^ x.exponent.toNat) := by
      simp only [numerator, denominator, Nat.pow_eq]
      ring
    have hdivisor : 0 < x.denominator * 2 ^ x.exponent.toNat :=
      Nat.mul_pos x.denominator_pos (Nat.two_pow_pos _)
    simp only [hsome.ne', if_false, hexponent, Nat.pow_eq, hexact, roundHalfEven_of_dvd hdivisor]
    exact hpacked

end Binary64

end MiniPascal
