import MiniPascal.Numeral.Decimal

/-!
# Hexadecimal Notation

Reading whole numbers in base sixteen, and characters whose code points are written
so.  The digits above nine may be capital or small letters.
-/

namespace MiniPascal

def hexValue? (c : Char) : Option Nat :=
  if c.isDigit then some (digitValue c)
  else if 'a' ≤ c && c ≤ 'f' then some (c.toNat - 'a'.toNat + 10)
  else if 'A' ≤ c && c ≤ 'F' then some (c.toNat - 'A'.toNat + 10)
  else none

def hexNumber? (digits : List Char) : Option Nat :=
  digits.foldl (fun n c => n.bind fun n => (hexValue? c).map (16 * n + ·)) (some 0)

/-- The character of a code point written in hexadecimal digits.  Surrogates are
not characters. -/
def codePoint? (digits : List Char) : Option Char :=
  (hexNumber? digits).bind fun n =>
    if n.isValidChar then some (Char.ofNat n) else none

end MiniPascal
