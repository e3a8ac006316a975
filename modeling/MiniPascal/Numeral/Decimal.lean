/-!
# Decimal Notation of Whole Numbers

Reading and writing whole numbers in base ten.  A number is written without
leading zeros and reads back (`digitsValue_decimal`); a run of digits may have
any length and any number of leading zeros.
-/

namespace MiniPascal

/-! ## §1 Reading -/

def digitValue (c : Char) : Nat :=
  c.toNat - '0'.toNat

/-- The number that a run of decimal digits denotes. -/
def digitsValue (digits : List Char) : Nat :=
  digits.foldl (fun n c => 10 * n + digitValue c) 0

/-- The last digit counts once, the digits before it ten times. -/
theorem digitsValue_append_digit (digits : List Char) (c : Char) :
    digitsValue (digits ++ [c]) = 10 * digitsValue digits + digitValue c := by
  simp [digitsValue, List.foldl_append]

/-! ## §2 Writing -/

/-- The digit that denotes `d`, for `d` below ten. -/
def digitChar (d : Nat) : Char :=
  Char.ofNat ('0'.toNat + d)

/-- The decimal digits of a number, without leading zeros. -/
def decimal (n : Nat) : List Char :=
  if n < 10 then [digitChar n] else decimal (n / 10) ++ [digitChar (n % 10)]
termination_by n
decreasing_by omega

/-- The decimal text of a number, with a sign if it is negative. -/
def integerText : Int → String
  | .ofNat n => String.ofList (decimal n)
  | .negSucc n => String.ofList ('-' :: decimal (n + 1))

def naturalText (n : Nat) : String :=
  String.ofList (decimal n)

/-! ## §3 Reading back -/

theorem digitValue_digitChar : ∀ d, d < 10 → digitValue (digitChar d) = d := by
  decide

theorem isDigit_digitChar : ∀ d, d < 10 → (digitChar d).isDigit = true := by
  decide

/-- **Writing and reading.**  The digits of a number denote it. -/
theorem digitsValue_decimal (n : Nat) : digitsValue (decimal n) = n := by
  fun_induction decimal n with
  | case1 n hsmall => simp [digitsValue, digitValue_digitChar n hsmall]
  | case2 n hlarge ih =>
      rw [digitsValue_append_digit, ih, digitValue_digitChar _ (Nat.mod_lt _ (by decide))]
      omega

theorem isDigit_of_mem_decimal (n : Nat) : ∀ c ∈ decimal n, c.isDigit = true := by
  fun_induction decimal n with
  | case1 n hsmall =>
      intro c hc
      rw [List.mem_singleton.mp hc]
      exact isDigit_digitChar n hsmall
  | case2 n hlarge ih =>
      intro c hc
      rcases List.mem_append.mp hc with hc | hc
      · exact ih c hc
      · rw [List.mem_singleton.mp hc]
        exact isDigit_digitChar _ (Nat.mod_lt _ (by decide))

end MiniPascal
