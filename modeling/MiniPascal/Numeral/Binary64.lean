/-!
# Binary Floating Point

The 64-bit binary format, as its bit pattern.  A finite pattern denotes a sign
times `significand · 2 ^ exponent`; rounding finds the pattern nearest to a
quotient of two natural numbers in exact arithmetic, and an exact half goes to
the even significand.

The patterns without a sign are numbered in the order of the numbers they
denote, so one formula packs subnormal and normal results alike, and a carry out
of the significand moves on to the next exponent by itself.
-/

namespace MiniPascal

/-! ## §1 Patterns -/

/-- A number of the 64-bit binary format, given by its bit pattern. -/
structure Binary64 where
  /-- Sign, biased exponent and fraction, from the highest bit down. -/
  bits : UInt64
  deriving DecidableEq

namespace Binary64

/-- The magnitude that stands for infinity; all above it are not numbers. -/
def infinityMagnitude : Nat := 2047 * Nat.pow 2 52

def isNegative (x : Binary64) : Bool :=
  Nat.pow 2 63 ≤ x.bits.toNat

/-- The pattern without its sign bit. -/
def magnitude (x : Binary64) : Nat :=
  x.bits.toNat % Nat.pow 2 63

/-- Whether the pattern denotes a number other than the infinities. -/
def isFinite (x : Binary64) : Bool :=
  x.magnitude < infinityMagnitude

/-- Whether the pattern denotes no number at all. -/
def isNaN (x : Binary64) : Bool :=
  infinityMagnitude < x.magnitude

/-- The biased exponent; zero marks the subnormal numbers. -/
def biasedExponent (x : Binary64) : Nat :=
  x.magnitude / Nat.pow 2 52

/-- The whole number that a power of two scales. -/
def significand (x : Binary64) : Nat :=
  if x.biasedExponent = 0 then x.magnitude % Nat.pow 2 52
  else Nat.pow 2 52 + x.magnitude % Nat.pow 2 52

/-- The power of two that scales the significand. -/
def exponent (x : Binary64) : Int :=
  max x.biasedExponent 1 - 1075

/-- The numerator of a finite number's absolute value. -/
def numerator (x : Binary64) : Nat :=
  x.significand * Nat.pow 2 x.exponent.toNat

/-- The denominator of a finite number's absolute value. -/
def denominator (x : Binary64) : Nat :=
  Nat.pow 2 (-x.exponent).toNat

/-- Equality of numbers: the two zeros are equal, and what is not a number
equals nothing. -/
def equals (x y : Binary64) : Bool :=
  !x.isNaN && !y.isNaN && (x.bits == y.bits || (x.magnitude == 0 && y.magnitude == 0))

def largest : Binary64 := ⟨0x7FEFFFFFFFFFFFFF⟩

end Binary64

/-! ## §2 Rounding a quotient -/

/-- The whole number nearest to `num / den`; an exact half goes to the even one. -/
def roundHalfEven (num den : Nat) : Nat :=
  let quotient := num / den
  let remainder := num % den
  if 2 * remainder < den then quotient
  else if den < 2 * remainder then quotient + 1
  else quotient + quotient % 2

/-- The greatest `k` with `2 ^ k ≤ num / den`, for positive `num` and `den`. -/
def floorLog2 (num den : Nat) : Int :=
  let guess : Int := (num.log2 : Int) - den.log2
  if den * Nat.pow 2 guess.toNat ≤ num * Nat.pow 2 (-guess).toNat then guess else guess - 1

/-- **The nearest whole number.**  It is at most one half away from the quotient;
the two bounds are multiplied out. -/
theorem roundHalfEven_bounds (num den : Nat) (h : 0 < den) :
    2 * num ≤ (2 * roundHalfEven num den + 1) * den ∧
      2 * roundHalfEven num den * den ≤ 2 * num + den := by
  have hdivided := Nat.div_add_mod num den
  have hsmall := Nat.mod_lt num h
  -- all products become multiples of `den * k`, which are atoms for the rest
  have hproduct : ∀ k, (2 * k + 1) * den = 2 * (den * k) + den ∧ 2 * k * den = 2 * (den * k) := by
    intro k
    constructor
    · rw [Nat.add_mul, Nat.mul_assoc, Nat.mul_comm k den, Nat.one_mul]
    · rw [Nat.mul_assoc, Nat.mul_comm k den]
  unfold roundHalfEven
  dsimp only
  generalize num / den = q at *
  generalize num % den = r at *
  split
  · -- the remainder is less than one half
    rw [(hproduct q).1, (hproduct q).2]
    omega
  · split
    · -- the remainder is more than one half
      rw [(hproduct (q + 1)).1, (hproduct (q + 1)).2, Nat.mul_add]
      omega
    · -- the remainder is one half
      rcases Nat.mod_two_eq_zero_or_one q with heven | hodd
      · rw [heven, (hproduct (q + 0)).1, (hproduct (q + 0)).2, Nat.add_zero]
        omega
      · rw [hodd, (hproduct (q + 1)).1, (hproduct (q + 1)).2, Nat.mul_add]
        omega

namespace Binary64

/-- The exponent at which a quotient has fifty-three significant bits, or the
least exponent of the format if that is greater. -/
def roundingExponent (num den : Nat) : Int :=
  max (floorLog2 num den - 52) (-1074)

/-- The magnitude nearest to `num / den`, of a format whose exponents have no
upper end. -/
def nearestMagnitude (num den : Nat) : Nat :=
  if num = 0 then 0
  else
    let e := roundingExponent num den
    (e + 1074).toNat * Nat.pow 2 52
      + roundHalfEven (num * Nat.pow 2 (-e).toNat) (den * Nat.pow 2 e.toNat)

/-- The number nearest to `num / den`, unless that quotient rounds past the
largest finite number. -/
def ofQuotient? (num den : Nat) : Option Binary64 :=
  let magnitude := nearestMagnitude num den
  if magnitude < infinityMagnitude then some ⟨UInt64.ofNat magnitude⟩ else none

end Binary64

end MiniPascal
