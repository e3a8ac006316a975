import MiniPascal.Numeral.Shortest
import MiniPascal.Toml.DateTime
import MiniPascal.Toml.Quoted

/-!
# Numbers in TOML

Integers are decimal, or unsigned in base sixteen, eight or two, and lie in the
range of 64 bits.  Reals have a fraction, an exponent or both, or are one of the
words for infinity and for what is not a number.  A single underscore may stand
between two digits.  A positive real that rounds to infinity is refused.
-/

namespace MiniPascal.Toml

/-! ## §1 Runs of digits -/

/-- The digits after the first one of a run, without underscores. -/
def laterDigits (isDigit : Char → Bool) : List Char → Except Fault (List Char × List Char)
  | [] => .ok ([], [])
  | ['_'] => .error (.unexpected ['_'])
  | '_' :: c :: text =>
    if isDigit c then prepend c (laterDigits isDigit text)
    else .error (.unexpected ('_' :: c :: text))
  | c :: text =>
    if isDigit c then prepend c (laterDigits isDigit text) else .ok ([], c :: text)

/-- A run of digits, without underscores. -/
def digitRun (isDigit : Char → Bool) : List Char → Except Fault (List Char × List Char)
  | [] => .error (.unexpected [])
  | c :: text =>
    if isDigit c then prepend c (laterDigits isDigit text) else .error (.unexpected (c :: text))

/-- Whether a text begins with a minus sign, and the text without its sign. -/
def takeSign : List Char → Bool × List Char
  | '-' :: text => (true, text)
  | '+' :: text => (false, text)
  | text => (false, text)

/-- The digits of a decimal number without its sign; only zero begins with a
zero. -/
def wholeDigits : List Char → Except Fault (List Char × List Char)
  | '0' :: text => .ok (['0'], text)
  | text => digitRun Char.isDigit text

/-! ## §2 Integers -/

/-- An integer in the range of 64 bits. -/
def checkedInteger (digits : List Char) (value : Int) : Except Fault Value :=
  if -(Nat.pow 2 63 : Int) ≤ value ∧ value < (Nat.pow 2 63 : Int) then .ok (.integer value)
  else .error (.outOfRange digits)

/-- The number that digits denote in a base. -/
def valueInBase (base : Nat) (digits : List Char) : Nat :=
  digits.foldl (fun n c => base * n + (hexValue? c).getD 0) 0

/-- An unsigned integer in a base other than ten, behind the letter of the base. -/
def unsigned (base : Nat) (text : List Char) : Except Fault (Value × List Char) := do
  let (digits, rest) ← digitRun (fun c => (hexValue? c).any (· < base)) text
  return (← checkedInteger digits (valueInBase base digits), rest)

/-! ## §3 Reals -/

/-- The sign put on a number without one. -/
def signed (negative : Bool) (magnitude : Nat) : Binary64 :=
  ⟨UInt64.ofNat (if negative then Nat.pow 2 63 + magnitude else magnitude)⟩

/-- The real number of some digits, of which the last `places` stand behind the
point, times a power of ten.  A power so great or so small that the number leaves
the range of the format for certain is cut short. -/
def realValue (negative : Bool) (digits : List Char) (places : Nat) (power : Int) :
    Except Fault Value :=
  let low : Int := -400 - digits.length
  let exponent := max low (min 400 (power - places))
  let d : Decimal := ⟨digitsValue digits, exponent⟩
  match Binary64.ofQuotient? d.numerator d.denominator with
  | some x => .ok (.real (signed negative x.magnitude))
  | none =>
    if negative then .ok (.real (signed true Binary64.infinityMagnitude))
    else .error (.outOfRange digits)

/-- The digits after a point, if there is one. -/
def fraction : List Char → Except Fault (List Char × List Char)
  | '.' :: text => digitRun Char.isDigit text
  | text => .ok ([], text)

/-- The power of ten, if there is one. -/
def power? : List Char → Except Fault (Option Int × List Char)
  | c :: text =>
    if c = 'e' ∨ c = 'E' then do
      let (negative, text) := takeSign text
      let (digits, rest) ← digitRun Char.isDigit text
      let size : Int := digitsValue digits
      return (some (if negative then -size else size), rest)
    else .ok (none, c :: text)
  | [] => .ok (none, [])

/-- A decimal number: an integer if it has neither a fraction nor a power of ten. -/
def decimalNumber (text : List Char) : Except Fault (Value × List Char) := do
  let (negative, unsignedText) := takeSign text
  let (whole, rest) ← wholeDigits unsignedText
  let (places, rest) ← fraction rest
  let (power, rest) ← power? rest
  if places.isEmpty && power.isNone then
    let size : Int := digitsValue whole
    return (← checkedInteger whole (if negative then -size else size), rest)
  else
    return (← realValue negative (whole ++ places) places.length (power.getD 0), rest)

/-! ## §4 Numbers, dates and times -/

def numberWord? (text : List Char) : Option (Value × List Char) :=
  let (negative, word) := takeSign text
  match word with
  | 'i' :: 'n' :: 'f' :: rest =>
      some (.real (signed negative Binary64.infinityMagnitude), rest)
  | 'n' :: 'a' :: 'n' :: rest =>
      some (.real (signed negative (Binary64.infinityMagnitude + Nat.pow 2 51)), rest)
  | _ => none

/-- A number, a date or a time. -/
def number (text : List Char) : Except Fault (Value × List Char) :=
  match dateTime? text with
  | some rest => .ok (.dateTime (String.ofList (text.take (text.length - rest.length))), rest)
  | none =>
    match text with
    | '0' :: 'x' :: digits => unsigned 16 digits
    | '0' :: 'o' :: digits => unsigned 8 digits
    | '0' :: 'b' :: digits => unsigned 2 digits
    | _ =>
      match numberWord? text with
      | some read => .ok read
      | none => decimalNumber text

end MiniPascal.Toml
