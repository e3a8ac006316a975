import MiniPascal.Numeral.Shortest

/-!
# Layouts of Real Numbers

How the shortest digits of a real number become text.  Small and large numbers
are written with a power of ten, the others positionally with at least one digit
on each side of the point.  A layout is the record of what differs between one
format and another; the formats themselves stand where they are used.
-/

namespace MiniPascal

/-! ## §1 The choices of a format -/

/-- The choices that a text format makes for real numbers. -/
structure RealLayout where
  /-- Which of two equally near digit strings is written. -/
  tie : Tie
  /-- The least power of ten of a leading digit that is written positionally. -/
  leastPositional : Int
  /-- The greatest such power. -/
  greatestPositional : Int
  /-- What stands between the letter `e` and a positive power of ten. -/
  positiveMark : String

/-! ## §2 Writing the digits -/

/-- Digits written positionally; the first of them counts `10 ^ leading`. -/
def positional (digits : List Char) (leading : Int) : List Char :=
  let before := (leading + 1).toNat
  if leading < 0 then
    '0' :: '.' :: (List.replicate (-leading - 1).toNat '0' ++ digits)
  else if digits.length ≤ before then
    digits ++ List.replicate (before - digits.length) '0' ++ ['.', '0']
  else
    digits.take before ++ '.' :: digits.drop before

/-- Digits written with a power of ten; a point follows the first digit unless it
is the only one. -/
def scientific (positiveMark : String) (digits : List Char) (leading : Int) : List Char :=
  let mantissa := match digits with
    | first :: rest@(_ :: _) => first :: '.' :: rest
    | short => short
  let mark := if 0 ≤ leading then positiveMark else ""
  mantissa ++ 'e' :: (mark ++ integerText leading).toList

namespace RealLayout

/-- The text of a finite number's absolute value.  Zero is written positionally. -/
def absolute (layout : RealLayout) (x : Binary64) : List Char :=
  if x.magnitude = 0 then ['0', '.', '0']
  else
    let d := x.shortest layout.tie
    let digits := decimal d.digits
    let leading := d.exponent + digits.length - 1
    if layout.leastPositional ≤ leading ∧ leading ≤ layout.greatestPositional then
      positional digits leading
    else
      scientific layout.positiveMark digits leading

/-- **The text of a finite number.**  The sign of zero is written like any other. -/
def finite (layout : RealLayout) (x : Binary64) : String :=
  String.ofList (if x.isNegative then '-' :: layout.absolute x else layout.absolute x)

end RealLayout

/-! ## §3 The plain layout -/

/-- **Plain text.**  Numbers from `1e-4` up to but not including `1e16` are written
positionally, a power of ten has a sign only if it is negative, and a tie goes
up. -/
def plainLayout : RealLayout := ⟨.up, -4, 15, ""⟩

/-- The plain text of any number, infinite and undefined ones included. -/
def Binary64.plainText (x : Binary64) : String :=
  if x.isNaN then "NaN"
  else if x.isFinite then plainLayout.finite x
  else if x.isNegative then "-inf"
  else "inf"

end MiniPascal
