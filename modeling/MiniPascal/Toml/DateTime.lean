import MiniPascal.Numeral.Decimal

/-!
# Dates and Times in TOML

A date, a time of day, or a date with a time and perhaps an offset from universal
time.  The fields have fixed widths and are checked against the calendar; a minute
may have a leap second.
-/

namespace MiniPascal.Toml

/-! ## §1 Fields -/

/-- A number of exactly `width` digits, with the text after it. -/
def fixedDigits? (width : Nat) (text : List Char) : Option (Nat × List Char) :=
  let digits := text.take width
  if digits.length = width ∧ digits.all Char.isDigit then
    some (digitsValue digits, text.drop width)
  else none

def after? (c : Char) : List Char → Option (List Char)
  | [] => none
  | d :: text => if d = c then some text else none

/-! ## §2 Dates -/

/-- Whether a year has a twenty-ninth of February. -/
def isLeapYear (year : Nat) : Bool :=
  (year % 4 == 0 && year % 100 != 0) || year % 400 == 0

def daysInMonth (year month : Nat) : Nat :=
  if month = 2 then (if isLeapYear year then 29 else 28)
  else if month ∈ [4, 6, 9, 11] then 30
  else 31

/-- The text after a date. -/
def date? (text : List Char) : Option (List Char) := do
  let (year, text) ← fixedDigits? 4 text
  let text ← after? '-' text
  let (month, text) ← fixedDigits? 2 text
  let text ← after? '-' text
  let (day, text) ← fixedDigits? 2 text
  if 1 ≤ month ∧ month ≤ 12 ∧ 1 ≤ day ∧ day ≤ daysInMonth year month then some text else none

/-! ## §3 Times -/

/-- The text after an hour and a minute. -/
def hourMinute? (text : List Char) : Option (List Char) := do
  let (hour, text) ← fixedDigits? 2 text
  let text ← after? ':' text
  let (minute, text) ← fixedDigits? 2 text
  if hour ≤ 23 ∧ minute ≤ 59 then some text else none

/-- The text after the fraction of a second, if there is one. -/
def dropFraction : List Char → List Char
  | '.' :: c :: text =>
    if c.isDigit then text.dropWhile Char.isDigit else '.' :: c :: text
  | text => text

/-- The text after a time of day. -/
def time? (text : List Char) : Option (List Char) := do
  let text ← hourMinute? text
  let text ← after? ':' text
  let (second, text) ← fixedDigits? 2 text
  if second ≤ 60 then some (dropFraction text) else none

/-- The text after an offset from universal time, if there is one. -/
def dropOffset (text : List Char) : List Char :=
  match text with
  | c :: rest =>
    if c = 'Z' ∨ c = 'z' then rest
    else if c = '+' ∨ c = '-' then (hourMinute? rest).getD text
    else text
  | [] => []

/-! ## §4 Both -/

/-- The text after a date, a time, or a date and a time with a letter `T` or a
space between them. -/
def dateTime? (text : List Char) : Option (List Char) :=
  match date? text with
  | none => time? text
  | some rest =>
    match rest with
    | c :: later =>
      if c = 'T' ∨ c = 't' ∨ c = ' ' then
        match time? later with
        | some rest => some (dropOffset rest)
        | none => some rest
      else some rest
    | [] => some []

end MiniPascal.Toml
