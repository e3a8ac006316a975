import MiniPascal.Numeral.Decimal
import Mathlib.Data.List.Induction
import Mathlib.Data.Nat.Digits.Defs

/-!
# Adding Up Digits in a Word

`digitsValue` counts without bound, while a signed word of 64 bits ends at `2 ^ 63 - 1`.  A
machine that adds up digits in such a word checks every step and stops at the first one that
goes out of range.  It stops for the numbers that do not fit and for no others: leading zeros
leave the word at zero, and no further digit makes a number smaller.

- `digitsValue_eq_placeValue`: digits count by their places;
- `accumulate?_eq`: what comes of the checked steps.
-/

namespace MiniPascal

/-! ## §1 Digits count by their places -/

/-- The number that digits denote in base ten, each by its place from the right. -/
def placeValue (digits : List Char) : Nat :=
  Nat.ofDigits 10 (digits.reverse.map digitValue)

theorem digitsValue_eq_placeValue (digits : List Char) :
    digitsValue digits = placeValue digits := by
  -- the last digit has the first place
  induction digits using List.reverseRecOn with
  | nil => rfl
  | append_singleton digits c ih =>
    rw [digitsValue_append_digit, ih, placeValue, placeValue, List.reverse_concat, List.map_cons,
      Nat.ofDigits_cons, Nat.add_comm]

theorem digitValue_lt {c : Char} (hdigit : c.isDigit = true) : digitValue c < 10 := by
  have hbounds := Char.isDigit_iff_toNat.mp hdigit
  simp only [digitValue, Char.reduceToNat] at hbounds ⊢
  omega

/-! ## §2 Checked steps -/

/-- The word that an operation gives, if it is the exact result. -/
def checked? (exact : Int) (word : Int64) : Option Int64 :=
  if word.toInt = exact then some word else none

def times? (a b : Int64) : Option Int64 := checked? (a.toInt * b.toInt) (a * b)

def plus? (a b : Int64) : Option Int64 := checked? (a.toInt + b.toInt) (a + b)

/-- One digit more: ten times the word and the digit, each step with its check. -/
def appendDigit? (n : Int64) (c : Char) : Option Int64 := do
  let tens ← times? n 10
  plus? tens (Int64.ofNat (digitValue c))

/-- **The word of a run of digits**, if no step goes out of range. -/
def accumulate? (digits : List Char) : Option Int64 :=
  digits.foldlM appendDigit? 0

section Steps

variable {n m : Nat}

/-- A word holds the numbers below `2 ^ 63`. -/
theorem checked?_ofNat (n : Nat) :
    checked? n (Int64.ofNat n) = if n < 2 ^ 63 then some (Int64.ofNat n) else none := by
  by_cases hsmall : n < 2 ^ 63
  · rw [checked?, if_pos (Int64.toInt_ofNat_of_lt hsmall), if_pos hsmall]
  · have hother : (Int64.ofNat n).toInt ≠ n := by
      have := (Int64.ofNat n).toInt_lt
      omega
    rw [checked?, if_neg hother, if_neg hsmall]

theorem times?_ofNat (hleft : n < 2 ^ 63) (hright : m < 2 ^ 63) :
    times? (Int64.ofNat n) (Int64.ofNat m)
      = if n * m < 2 ^ 63 then some (Int64.ofNat (n * m)) else none := by
  rw [times?, Int64.toInt_ofNat_of_lt hleft, Int64.toInt_ofNat_of_lt hright, ← Int64.ofNat_mul,
    ← Int.natCast_mul, checked?_ofNat]

theorem plus?_ofNat (hleft : n < 2 ^ 63) (hright : m < 2 ^ 63) :
    plus? (Int64.ofNat n) (Int64.ofNat m)
      = if n + m < 2 ^ 63 then some (Int64.ofNat (n + m)) else none := by
  rw [plus?, Int64.toInt_ofNat_of_lt hleft, Int64.toInt_ofNat_of_lt hright, ← Int64.ofNat_add,
    ← Int.natCast_add, checked?_ofNat]

/-- A step goes out of range where the number with the digit does. -/
theorem appendDigit?_ofNat {c : Char} (hsmall : n < 2 ^ 63) (hdigit : c.isDigit = true) :
    appendDigit? (Int64.ofNat n) c
      = if 10 * n + digitValue c < 2 ^ 63 then some (Int64.ofNat (10 * n + digitValue c))
        else none := by
  have hone := digitValue_lt hdigit
  have hten : (10 : Int64) = Int64.ofNat 10 := rfl
  simp only [appendDigit?, Option.bind_eq_bind, hten, times?_ofNat hsmall (by decide : 10 < 2 ^ 63),
    Nat.mul_comm n 10]
  by_cases htens : 10 * n < 2 ^ 63
  · rw [if_pos htens, Option.bind_some, plus?_ofNat htens (by omega)]
  · -- the product alone is too large
    have hlarge : ¬ 10 * n + digitValue c < 2 ^ 63 := by omega
    rw [if_neg htens, Option.bind_none, if_neg hlarge]

end Steps

/-- **The checks are exact.**  The digits of a number that fits are added up to that number,
and those of any other are not, however many zeros stand in front. -/
theorem accumulate?_eq {digits : List Char} (hall : ∀ c ∈ digits, c.isDigit = true) :
    accumulate? digits
      = if digitsValue digits < 2 ^ 63 then some (Int64.ofNat (digitsValue digits)) else none := by
  -- one digit more at the end, as the steps go
  induction digits using List.reverseRecOn with
  | nil => rfl
  | append_singleton digits c ih =>
    obtain ⟨hfront, hlast⟩ := List.forall_mem_append.mp hall
    have hdigit := hlast c (List.mem_singleton.mpr rfl)
    rw [accumulate?, List.foldlM_append, ← accumulate?, ih hfront, digitsValue_append_digit]
    by_cases hsmall : digitsValue digits < 2 ^ 63
    · simp only [if_pos hsmall, Option.bind_eq_bind, Option.bind_some, List.foldlM_cons,
        appendDigit?_ofNat hsmall hdigit, List.foldlM_nil]
      split <;> rfl
    · -- once out of range, always out of range
      have hlarge : ¬ 10 * digitsValue digits + digitValue c < 2 ^ 63 := by omega
      rw [if_neg hsmall, if_neg hlarge]
      rfl

end MiniPascal
