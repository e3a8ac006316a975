import MiniPascal.Numeral.Layout

/-!
# JSON Scalars

The values of JSON that are written without brackets, and their text.

A whole number is written in decimal.  A real number always shows that it is one:
it has a point or a power of ten.  What is not a finite number is written as
`null`.  In a string only the quotation mark, the backslash and the control
characters are escaped.
-/

namespace MiniPascal.Json

/-! ## §1 Values -/

inductive Scalar where
  | null
  | string (text : String)
  | integer (value : Int)
  | real (value : Binary64)
  deriving DecidableEq

/-! ## §2 Numbers -/

/-- **Real numbers in JSON.**  Numbers from `1e-5` up to but not including `1e16`
are written positionally, a power of ten always has a sign, and a tie goes to the
even digit. -/
def realLayout : RealLayout := ⟨.even, -5, 15, "+"⟩

/-! ## §3 Strings -/

/-- A hexadecimal digit in lower case, for `d` below sixteen. -/
def hexDigit (d : Nat) : Char :=
  if d < 10 then digitChar d else Char.ofNat ('a'.toNat + (d - 10))

def escape (c : Char) : List Char :=
  if c = '"' then ['\\', '"']
  else if c = '\\' then ['\\', '\\']
  else if c = '\x08' then ['\\', 'b']
  else if c = '\x0c' then ['\\', 'f']
  else if c = '\n' then ['\\', 'n']
  else if c = '\r' then ['\\', 'r']
  else if c = '\t' then ['\\', 't']
  else if c.toNat < 0x20 then
    ['\\', 'u', '0', '0', hexDigit (c.toNat / 16), hexDigit (c.toNat % 16)]
  else [c]

def quote (text : String) : String :=
  String.ofList ('"' :: (text.toList.flatMap escape ++ ['"']))

/-! ## §4 Scalars -/

namespace Scalar

def text : Scalar → String
  | null => "null"
  | string s => quote s
  | integer value => integerText value
  | real value => if value.isFinite then realLayout.finite value else "null"

end Scalar

end MiniPascal.Json
