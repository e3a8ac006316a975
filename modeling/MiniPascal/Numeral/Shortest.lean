import MiniPascal.Numeral.Binary64
import MiniPascal.Numeral.Decimal

/-!
# Shortest Decimals

The shortest decimal that reads back as a given binary number.  On the grid of
decimals with `n` digits only the two neighbours of the number can be nearest to
it, so the search tries those two for one digit, for two digits, and so on.  The
first grid with a neighbour that reads back wins; of two such neighbours the
nearer, and a tie between them is broken as the caller asks.

A binary fraction has a finite decimal expansion, which bounds the search: the
last grid holds the number itself.
-/

namespace MiniPascal

/-! ## §1 Decimals -/

/-- The decimal number `digits · 10 ^ exponent`. -/
structure Decimal where
  /-- The digits, as a whole number. -/
  digits : Nat
  /-- The power of ten that scales them. -/
  exponent : Int
  deriving DecidableEq

namespace Decimal

def numerator (d : Decimal) : Nat :=
  d.digits * Nat.pow 10 d.exponent.toNat

def denominator (d : Decimal) : Nat :=
  Nat.pow 10 (-d.exponent).toNat

/-- Moves the trailing zeros of the digits into the exponent. -/
def trim (d : Decimal) : Decimal :=
  if d.digits ≠ 0 ∧ d.digits % 10 = 0 then trim ⟨d.digits / 10, d.exponent + 1⟩ else d
termination_by d.digits
decreasing_by omega

end Decimal

/-! ## §2 The grids around a number -/

/-- The greatest `k` with `10 ^ k ≤ num / den`, for positive `num` and `den`. -/
def floorLog10 (num den : Nat) : Int :=
  let guess : Int := ((decimal num).length : Int) - (decimal den).length
  if den * Nat.pow 10 guess.toNat ≤ num * Nat.pow 10 (-guess).toNat then guess else guess - 1

/-- Which of two decimals at the same distance is taken. -/
inductive Tie where
  /-- The greater one. -/
  | up
  /-- The one whose last digit is even. -/
  | even
  deriving DecidableEq

namespace Binary64

/-- Whether a decimal rounds to the absolute value of `x`. -/
def isReadFrom (x : Binary64) (d : Decimal) : Bool :=
  (ofQuotient? d.numerator d.denominator).map magnitude == some x.magnitude

/-- The neighbours of `|x|` among the multiples of `10 ^ k`, the preferred one
first. -/
def neighbours (x : Binary64) (tie : Tie) (k : Int) : List Decimal :=
  let num := x.numerator * Nat.pow 10 (-k).toNat
  let den := x.denominator * Nat.pow 10 k.toNat
  let below := num / den
  let gap := num % den
  let upward := den < 2 * gap || (den == 2 * gap && (tie == .up || below % 2 == 1))
  if upward then [⟨below + 1, k⟩, ⟨below, k⟩] else [⟨below, k⟩, ⟨below + 1, k⟩]

/-- Tries grids of ever finer step: `attempts` of them from `10 ^ k` down, and then
the point below `|x|` on the next one. -/
def searchShortest (x : Binary64) (tie : Tie) : Nat → Int → Decimal
  | 0, k => ⟨x.numerator * Nat.pow 10 (-k).toNat / (x.denominator * Nat.pow 10 k.toNat), k⟩
  | attempts + 1, k =>
    match (x.neighbours tie k).find? x.isReadFrom with
    | some d => d
    | none => searchShortest x tie attempts (k - 1)

/-- **The shortest decimal** of a finite number other than zero, without its sign.
The coarsest grid has one digit, the finest holds the number itself. -/
def shortest (x : Binary64) (tie : Tie) : Decimal :=
  let leading := floorLog10 x.numerator x.denominator
  let finest := min x.exponent 0
  (searchShortest x tie (leading - finest).toNat leading).trim

end Binary64

end MiniPascal
