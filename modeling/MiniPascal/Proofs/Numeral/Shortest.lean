import MiniPascal.Numeral.Shortest
import MiniPascal.Proofs.Numeral.Rounding
import Mathlib.Algebra.Order.Floor.Semifield
import Mathlib.Data.Nat.Cast.Field

/-!
# Shortest Decimals Read Back

The search for the shortest decimal of a number goes through ever finer grids.  Whatever it
finds reads back as the number, since a candidate is tried before it is taken and the last
grid holds the number itself (`shortest_represents`).  It also stays in the decade of the
number: a neighbour on a grid can reach the next power of ten, but not pass it.
-/

namespace MiniPascal

/-! ## §1 Values of decimals -/

namespace Decimal

/-- The number that a decimal stands for. -/
def value (d : Decimal) : ℚ := d.digits * 10 ^ d.exponent

variable {d : Decimal}

theorem denominator_pos (d : Decimal) : 0 < d.denominator := by
  simp [denominator, Nat.pow_eq]

theorem numerator_div_denominator (d : Decimal) :
    (d.numerator : ℚ) / d.denominator = d.value := by
  simp only [numerator, denominator, Nat.pow_eq, value]
  exact_mod_cast Binary64.scaled_eq_div (b := 10) (by decide) d.digits d.exponent

/-- Moving zeros into the exponent does not change the number. -/
theorem value_trim (d : Decimal) : d.trim.value = d.value := by
  fun_induction trim d with
  | case1 d hzeros ih =>
    -- the digits end in a zero, so nothing is lost in the division
    have htenfold : d.digits = d.digits / 10 * 10 := by omega
    rw [ih, value, value]
    conv_rhs => rw [htenfold]
    push_cast
    rw [zpow_add_one₀ (by norm_num)]
    ring
  | case2 => rfl

theorem digits_pos_of_value_pos (hpos : 0 < d.value) : 0 < d.digits := by
  apply Nat.pos_of_ne_zero
  intro hnone
  simp [value, hnone] at hpos

end Decimal

/-- A number has one digit more than the power of ten below it says. -/
theorem length_decimal (n : Nat) : (decimal n).length = Nat.log 10 n + 1 := by
  fun_induction decimal n with
  | case1 n hsmall => simp [Nat.log_of_lt hsmall]
  | case2 n hlarge ih =>
    have htenth : Nat.log 10 n = Nat.log 10 (n / 10) + 1 :=
      Nat.log_of_one_lt_of_le (by decide) (by omega)
    rw [List.length_append, ih, htenth]
    rfl

theorem decimal_ne_nil (n : Nat) : decimal n ≠ [] := by
  rw [← List.length_pos_iff, length_decimal]
  exact Nat.succ_pos _

theorem floorLog10_eq_log {num den : Nat} (hnum : 0 < num) (hden : 0 < den) :
    floorLog10 num den = Int.log 10 ((num : ℚ) / den) := by
  have hlengths : ((decimal num).length : Int) - (decimal den).length
      = (Nat.log 10 num : Int) - Nat.log 10 den := by
    rw [length_decimal, length_decimal]
    push_cast
    ring
  rw [Binary64.log_div_eq (by decide) hnum hden]
  simp only [floorLog10, hlengths, Nat.pow_eq]

namespace Binary64

variable {x : Binary64} {d d' : Decimal} {tie : Tie} {k : Int}

/-! ## §2 Reading back -/

/-- What a decimal reads back as depends on its value only. -/
theorem isReadFrom_congr (hsame : d.value = d'.value) : x.isReadFrom d = x.isReadFrom d' := by
  have hquotients : (d.numerator : ℚ) / d.denominator = (d'.numerator : ℚ) / d'.denominator := by
    rw [d.numerator_div_denominator, d'.numerator_div_denominator, hsame]
  rw [isReadFrom, isReadFrom, ofQuotient?_congr d.denominator_pos d'.denominator_pos hquotients]

/-- A decimal with the value of a number reads back as the number. -/
theorem isReadFrom_of_value_eq (hfinite : x.isFinite = true) (hsame : d.value = x.value) :
    x.isReadFrom d = true := by
  have hquotients : (d.numerator : ℚ) / d.denominator = (x.numerator : ℚ) / x.denominator := by
    rw [d.numerator_div_denominator, numerator_div_denominator, hsame]
  have hsmall := isFinite_iff.mp hfinite
  rw [isReadFrom, ofQuotient?_congr d.denominator_pos x.denominator_pos hquotients]
  simp [ofQuotient?, nearestMagnitude_self hfinite, hsmall, magnitude_ofNat hsmall]

/-- A decimal for a number: it reads back as the number and lies in its decade, or at the
end of it. -/
structure Represents (x : Binary64) (d : Decimal) : Prop where
  readsBack : x.isReadFrom d = true
  low : (10 : ℚ) ^ Int.log 10 x.value ≤ d.value
  high : d.value ≤ (10 : ℚ) ^ (Int.log 10 x.value + 1)

/-! ## §3 The search -/

theorem of_mem_neighbours (hfound : d ∈ x.neighbours tie k) :
    d.exponent = k ∧
      (d.digits = ⌊x.value * 10 ^ (-k)⌋₊ ∨ d.digits = ⌊x.value * 10 ^ (-k)⌋₊ + 1) := by
  have hsteps := scaled_div (b := 10) (by decide) x.numerator x.denominator k
  rw [numerator_div_denominator, Nat.cast_ofNat] at hsteps
  -- the division of natural numbers is the floor of the quotient in steps of the grid
  have hbelow := Nat.floor_div_eq_div (K := ℚ) (x.numerator * 10 ^ (-k).toNat)
    (x.denominator * 10 ^ k.toNat)
  rw [hsteps] at hbelow
  rw [hbelow]
  unfold neighbours at hfound
  simp only [Nat.pow_eq] at hfound
  split at hfound <;> simp only [List.mem_cons, List.not_mem_nil, or_false] at hfound <;>
    rcases hfound with rfl | rfl <;> simp

/-- **Neighbours stay in the decade**, on any grid that holds the power of ten below the
number. -/
theorem decade_of_mem_neighbours (hpositive : 0 < x.value) (hcoarse : k ≤ Int.log 10 x.value)
    (hfound : d ∈ x.neighbours tie k) :
    (10 : ℚ) ^ Int.log 10 x.value ≤ d.value ∧ d.value ≤ (10 : ℚ) ^ (Int.log 10 x.value + 1) := by
  obtain ⟨hexponent, hdigits⟩ := of_mem_neighbours hfound
  have hlow := Int.zpow_log_le_self (b := 10) (by decide) hpositive
  have hhigh := Int.lt_zpow_succ_log_self (b := 10) (by decide) x.value
  -- in steps of the grid both ends of the decade are whole numbers
  obtain ⟨j, hj⟩ : ∃ j : Nat, Int.log 10 x.value = j + k :=
    ⟨(Int.log 10 x.value - k).toNat, by omega⟩
  have hstep : (0 : ℚ) < 10 ^ k := by positivity
  rw [hj] at hlow hhigh ⊢
  rw [add_right_comm, zpow_add₀ (by norm_num)] at hhigh
  rw [zpow_add₀ (by norm_num)] at hlow
  rw [add_right_comm, zpow_add₀ (by norm_num), zpow_add₀ (by norm_num), Decimal.value, hexponent]
  have hfirst : 10 ^ j ≤ ⌊x.value * 10 ^ (-k)⌋₊ := by
    apply Nat.le_floor
    rw [zpow_neg, ← div_eq_mul_inv, le_div_iff₀ hstep]
    exact_mod_cast hlow
  have hlast : ⌊x.value * 10 ^ (-k)⌋₊ < 10 ^ (j + 1) := by
    rw [Nat.floor_lt (by positivity), zpow_neg, ← div_eq_mul_inv, div_lt_iff₀ hstep]
    exact_mod_cast hhigh
  have hleast : 10 ^ j ≤ d.digits := by omega
  have hgreatest : d.digits ≤ 10 ^ (j + 1) := by omega
  constructor
  · gcongr
    exact_mod_cast hleast
  · gcongr
    exact_mod_cast hgreatest

/-- The finest grid holds the number. -/
theorem value_finest (x : Binary64) :
    (⟨x.numerator * 10 ^ (-min x.exponent 0).toNat
        / (x.denominator * 10 ^ (min x.exponent 0).toNat),
      min x.exponent 0⟩ : Decimal).value = x.value := by
  have hwhole : (x.denominator * 10 ^ (min x.exponent 0).toNat : Nat)
      ∣ x.numerator * 10 ^ (-min x.exponent 0).toNat := by
    have hnone : (min x.exponent 0).toNat = 0 := by omega
    have hsame : (-min x.exponent 0).toNat = (-x.exponent).toNat := by omega
    rw [hnone, hsame, pow_zero, mul_one, denominator, Nat.pow_eq]
    -- ten has the factor two of the denominator
    exact Dvd.dvd.mul_left (pow_dvd_pow_of_dvd (by decide) _) _
  have hstep : (10 : ℚ) ^ min x.exponent 0 ≠ 0 := by positivity
  have hsteps := scaled_div (b := 10) (by decide) x.numerator x.denominator (min x.exponent 0)
  rw [Decimal.value, Nat.cast_div_charZero hwhole, hsteps, numerator_div_denominator,
    Nat.cast_ofNat, zpow_neg, mul_assoc, inv_mul_cancel₀ hstep, mul_one]

/-- The finest grid holds the power of ten below the number. -/
theorem finest_le_log (hfinite : x.isFinite = true) (hnonzero : x.magnitude ≠ 0) :
    min x.exponent 0 ≤ Int.log 10 x.value := by
  have hdigits : (1 : ℚ) ≤ x.significand := by exact_mod_cast (significand_cases hfinite hnonzero).1
  rw [← Int.zpow_le_iff_le_log (by decide) (value_pos hfinite hnonzero), value]
  have hfine : ((10 : Nat) : ℚ) ^ min x.exponent 0 ≤ 2 ^ x.exponent := by
    -- a power of ten is at most the power of two if the exponent is negative, and one otherwise
    generalize x.exponent = e
    obtain ⟨n, rfl | rfl⟩ := e.eq_nat_or_neg
    · rw [min_eq_right (by omega), zpow_zero, zpow_natCast]
      exact one_le_pow₀ (by norm_num)
    · rw [min_eq_left (by omega), zpow_neg, zpow_neg, zpow_natCast, zpow_natCast]
      gcongr
      norm_num
  calc ((10 : Nat) : ℚ) ^ min x.exponent 0 ≤ 2 ^ x.exponent := hfine
    _ = 1 * 2 ^ x.exponent := (one_mul _).symm
    _ ≤ x.significand * 2 ^ x.exponent := by gcongr

/-- **Whatever the search finds represents the number**, if it ends at the finest grid. -/
theorem searchShortest_represents (hfinite : x.isFinite = true) (hnonzero : x.magnitude ≠ 0)
    (attempts : Nat) (hcoarse : k ≤ Int.log 10 x.value) (hlast : k = min x.exponent 0 + attempts) :
    x.Represents (searchShortest x tie attempts k) := by
  have hpositive := value_pos hfinite hnonzero
  -- on the grids that are left; the last one is the grid of the number itself
  induction attempts generalizing k with
  | zero =>
    rw [Nat.cast_zero, add_zero] at hlast
    subst hlast
    have hexact := value_finest x
    simp only [searchShortest, Nat.pow_eq]
    refine ⟨isReadFrom_of_value_eq hfinite hexact, ?_, ?_⟩
    · rw [hexact]
      exact_mod_cast Int.zpow_log_le_self (b := 10) (by decide) hpositive
    · rw [hexact]
      exact_mod_cast (Int.lt_zpow_succ_log_self (b := 10) (by decide) x.value).le
  | succ attempts ih =>
    rw [searchShortest]
    split
    · -- a neighbour reads back, and is taken
      rename_i d hfound
      have hdecade := decade_of_mem_neighbours hpositive hcoarse (List.mem_of_find?_eq_some hfound)
      exact ⟨List.find?_some hfound, hdecade.1, hdecade.2⟩
    · -- no neighbour reads back, and the next grid is ten times as fine
      apply ih
      · omega
      · push_cast at hlast
        omega

/-- **The shortest decimal of a number represents it.** -/
theorem shortest_represents (hfinite : x.isFinite = true) (hnonzero : x.magnitude ≠ 0) (tie : Tie) :
    x.Represents (x.shortest tie) := by
  have hsome : 0 < x.numerator := by
    simp [numerator, Nat.pow_eq, (significand_cases hfinite hnonzero).1]
  have hleading : floorLog10 x.numerator x.denominator = Int.log 10 x.value := by
    rw [floorLog10_eq_log hsome x.denominator_pos, numerator_div_denominator]
  have hfine := finest_le_log hfinite hnonzero
  have hfound : x.Represents (searchShortest x tie
      (Int.log 10 x.value - min x.exponent 0).toNat (Int.log 10 x.value)) :=
    searchShortest_represents hfinite hnonzero _ (le_refl _) (by omega)
  -- only zeros are taken off, and no property asked for depends on them
  have hsame : (x.shortest tie).value = (searchShortest x tie
      (Int.log 10 x.value - min x.exponent 0).toNat (Int.log 10 x.value)).value := by
    rw [shortest]
    simp only [hleading]
    exact Decimal.value_trim _
  refine ⟨?_, ?_, ?_⟩
  · rw [isReadFrom_congr hsame]
    exact hfound.readsBack
  · rw [hsame]
    exact hfound.low
  · rw [hsame]
    exact hfound.high

end Binary64

end MiniPascal
