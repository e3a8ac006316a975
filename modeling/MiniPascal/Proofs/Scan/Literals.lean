import MiniPascal.Proofs.Numeral.Accumulator
import MiniPascal.Proofs.Numeral.Nearest
import MiniPascal.Proofs.Numeral.PlainText
import MiniPascal.Proofs.Scan.Account

/-!
# What Number Literals Denote

Wherever a scanner stands on a digit, it can read a number there.  This module says which one,
how far the scanner goes, and what it reports:

- `number_at_digit`: digits without a point denote their number, or the largest one that an
  integer token can carry;
- `number_at_point`: digits around a point denote the number of the format nearest to the exact
  one, or the largest number of the format.
-/

namespace MiniPascal

open Grammar

/-! ## §1 The exact number of a literal with a point -/

/-- The number that the digits around a point stand for. -/
def pointValue (whole fraction : List Char) : ℚ :=
  placeValue whole + placeValue fraction / 10 ^ fraction.length

section Exact

variable {whole fraction : List Char}

/-- The point divides the number of all digits by ten for each digit behind it. -/
theorem pointValue_eq (whole fraction : List Char) :
    pointValue whole fraction
      = (digitsValue (whole ++ fraction) : ℚ) / (Nat.pow 10 fraction.length : Nat) := by
  have hpower : (10 : ℚ) ^ fraction.length ≠ 0 := by positivity
  rw [pointValue, ← digitsValue_eq_placeValue, ← digitsValue_eq_placeValue, digitsValue_append,
    Nat.pow_eq]
  push_cast
  rw [add_div, mul_div_cancel_right₀ _ hpower]

/-- **A literal denotes the nearest number of the format**, even if it is too large. -/
theorem isNearest_realValue (whole fraction : List Char) :
    (realValue whole fraction).IsNearest (pointValue whole fraction) := by
  have hpower : 0 < Nat.pow 10 fraction.length := Nat.pow_pos (Nat.succ_pos 9)
  rw [realValue, pointValue_eq]
  -- where rounding finds no number, the exact one is out of range
  cases hfound : Binary64.ofQuotient? (digitsValue (whole ++ fraction))
      (Nat.pow 10 fraction.length) with
  | some x => exact Binary64.isNearest_of_ofQuotient? hpower hfound
  | none => exact Binary64.isNearest_largest ((Binary64.ofQuotient?_eq_none_iff hpower _).mp hfound)

theorem realValue_of_large (hlarge : Binary64.overflowLimit ≤ pointValue whole fraction) :
    realValue whole fraction = .largest := by
  have hpower : 0 < Nat.pow 10 fraction.length := Nat.pow_pos (Nat.succ_pos 9)
  rw [pointValue_eq] at hlarge
  rw [realValue, (Binary64.ofQuotient?_eq_none_iff hpower _).mpr hlarge]
  rfl

end Exact

namespace Scanner

variable {scanner : Scanner} {digits whole fraction rest : List Char}

/-! ## §2 Where a literal stands -/

/-- The scanner stands on a run of digits, and `rest` is what follows the run. -/
structure OnDigits (scanner : Scanner) (digits rest : List Char) : Prop where
  inside : digits ≠ []
  all : ∀ c ∈ digits, c.isDigit = true
  stops : ∀ c ∈ rest.head?, c.isDigit = false
  here : scanner.cursor.rest = digits ++ rest

/-- The scanner stands on a run of digits with a point behind it, `fraction` is the run of
digits behind the point, and `rest` is what follows. -/
structure OnPoint (scanner : Scanner) (whole fraction rest : List Char) : Prop where
  onDigits : scanner.OnDigits whole ('.' :: (fraction ++ rest))
  all : ∀ c ∈ fraction, c.isDigit = true
  stops : ∀ c ∈ rest.head?, c.isDigit = false

/-- The scanner that has passed `text`, with `rest` still to read. -/
def past (scanner : Scanner) (text rest : List Char) : Scanner :=
  { scanner with cursor :=
      ⟨scanner.cursor.source, rest, scanner.cursor.location.advance text⟩ }

/-- Every digit belongs to a run of digits. -/
theorem exists_onDigits {c : Char} (hhere : scanner.cursor.current? = some c)
    (hdigit : c.isDigit = true) : ∃ digits rest, scanner.OnDigits digits rest := by
  obtain ⟨more, htext⟩ := List.head?_eq_some_iff.mp hhere
  -- the run is the longest one, and the character that is known makes it not empty
  refine ⟨_, _, ?_, fun _ => List.mem_takeWhile_imp, of_mem_head?_dropWhile,
    List.takeWhile_append_dropWhile.symm⟩
  simp [htext, List.takeWhile_cons_of_pos hdigit]

/-- Behind a point there is a run of digits, though it may be empty. -/
theorem OnDigits.exists_onPoint (hon : scanner.OnDigits digits ('.' :: rest)) :
    ∃ fraction behind, rest = fraction ++ behind ∧ scanner.OnPoint digits fraction behind := by
  have hrun := (List.takeWhile_append_dropWhile (p := Char.isDigit) (l := rest)).symm
  exact ⟨_, _, hrun, hrun ▸ hon, fun _ => List.mem_takeWhile_imp, of_mem_head?_dropWhile⟩

/-! ## §3 The literal that is read -/

/-- Digits without a point are read as a whole number. -/
theorem OnDigits.number_eq (hon : scanner.OnDigits digits rest) (hnoPoint : rest.head? ≠ some '.') :
    scanner.number = scanner.take (Lexeme.integer digits) := by
  have hrun := takeWhile_run hon.all hon.stops
  have hafter := dropWhile_run hon.all hon.stops
  rw [number, hon.here, number_eq_integer (by rwa [hafter]), hrun]

/-- Digits around a point are read as a real number. -/
theorem OnPoint.number_eq (hon : scanner.OnPoint whole fraction rest) :
    scanner.number = scanner.take (Lexeme.real whole fraction) := by
  -- each of the two runs ends where the next character is no digit
  have hrun := takeWhile_run hon.onDigits.all hon.onDigits.stops
  have hafter := dropWhile_run hon.onDigits.all hon.onDigits.stops
  rw [number, hon.onDigits.here, number_eq_real hafter, hrun, takeWhile_run hon.all hon.stops]

/-- A lexeme at the place of a scanner is passed whole. -/
theorem take_scanner {lexeme : Lexeme} (hhere : scanner.cursor.rest = lexeme.text ++ rest) :
    (scanner.take lexeme).scanner = scanner.past lexeme.text rest :=
  congrArg (fun cursor => { scanner with cursor }) (Cursor.drop_length hhere)

/-- What is reported of a literal of either kind. -/
theorem records_take (scanner : Scanner) {lexeme : Lexeme} {kind : TokenKind}
    (hknown : lexeme.token.kind = kind) (hnumber : kind = .integerLiteral ∨ kind = .realLiteral) :
    (scanner.take lexeme).events.map Event.record
      = if lexeme.saturated then [saturationRecord kind lexeme.text] else [] := by
  show (saturation lexeme).map Event.record = _
  unfold saturation
  rcases hnumber with rfl | rfl
  all_goals
    cases lexeme.saturated <;> simp [hknown, saturationRecord, Event.record]

/-! ## §4 Whole numbers -/

/-- **A whole number is read** from a run of digits. -/
structure ReadsWhole (scanner : Scanner) (digits rest : List Char) : Prop where
  /-- The token has the number of the digits, or the largest one. -/
  result : scanner.number.result = .integer (min (placeValue digits) (2 ^ 63 - 1) : Nat)
  /-- The run is passed, and nothing else. -/
  passed : scanner.number.scanner = scanner.past digits rest
  /-- A number that is out of range is reported once, and no other is. -/
  records : scanner.number.events.map Event.record
    = if 2 ^ 63 - 1 < placeValue digits then [saturationRecord .integerLiteral digits] else []
  /-- Out of range are the numbers that digits cannot be added up to in a word. -/
  word : (accumulate? digits).map Int64.toInt
    = if 2 ^ 63 - 1 < placeValue digits then none else some ↑(placeValue digits)

theorem OnDigits.readsWhole (hon : scanner.OnDigits digits rest)
    (hnoPoint : rest.head? ≠ some '.') : scanner.ReadsWhole digits rest := by
  have hsame := digitsValue_eq_placeValue digits
  have htext := text_integer digits
  have htoken := token_integer hon.inside
  have hknown : (Lexeme.integer digits).token.kind = .integerLiteral := congrArg Token.kind htoken
  -- the literal is reported by its exact value, which is the place value of its digits
  have hsaturated : (Lexeme.integer digits).saturated = true ↔ 2 ^ 63 - 1 < placeValue digits := by
    have hlimit := saturated_integer hon.inside hon.all
    have hcast : (2 ^ 63 - 1 : ℚ) = (2 ^ 63 - 1 : Nat) := by norm_num
    rwa [IsTooLarge, exactValue_integer hon.all, hsame, hcast, Nat.cast_lt] at hlimit
  constructor
  case result =>
    rw [hon.number_eq hnoPoint, ← hsame]
    exact htoken
  case passed => rw [hon.number_eq hnoPoint, take_scanner (by rw [htext, hon.here]), htext]
  case records =>
    rw [hon.number_eq hnoPoint]
    simp only [records_take scanner hknown (.inl rfl), hsaturated, htext]
  case word =>
    -- a number below `2 ^ 63` is one of at most `2 ^ 63 - 1`
    rw [accumulate?_eq hon.all, hsame]
    by_cases hlarge : 2 ^ 63 - 1 < placeValue digits
    · have houtside : ¬ placeValue digits < 2 ^ 63 := by omega
      rw [if_pos hlarge, if_neg houtside, Option.map_none]
    · have hfits : placeValue digits < 2 ^ 63 := by omega
      rw [if_neg hlarge, if_pos hfits, Option.map_some, Int64.toInt_ofNat_of_lt hfits]

/-- **Whole numbers are exact or the largest one.**  A scanner on a digit reads the run of
digits that stands there, however long it is and with however many zeros it begins.  Without a
point behind it the run is a whole number.  With a point, the number goes on over the digits
behind the point, and is a real number. -/
theorem number_at_digit {c : Char} (hhere : scanner.cursor.current? = some c)
    (hdigit : c.isDigit = true) :
    ∃ digits rest, scanner.OnDigits digits rest ∧
      (rest.head? ≠ some '.' → scanner.ReadsWhole digits rest) ∧
      ∀ behind, rest = '.' :: behind →
        ∃ fraction rest' x, behind = fraction ++ rest' ∧ scanner.OnPoint digits fraction rest' ∧
          scanner.number.result = .real x ∧
          scanner.number.scanner = scanner.past (digits ++ '.' :: fraction) rest' := by
  obtain ⟨digits, rest, hon⟩ := exists_onDigits hhere hdigit
  refine ⟨digits, rest, hon, hon.readsWhole, ?_⟩
  rintro behind rfl
  -- the point belongs to the literal even if no digit follows it
  obtain ⟨fraction, rest', hrun, hpoint⟩ := hon.exists_onPoint
  have htext := text_real digits fraction
  have hwhole : scanner.cursor.rest = (Lexeme.real digits fraction).text ++ rest' := by
    rw [htext, hpoint.onDigits.here, List.append_assoc]
    rfl
  refine ⟨fraction, rest', realValue digits fraction, hrun, hpoint, ?_, ?_⟩
  · rw [hpoint.number_eq]
    exact token_real digits fraction
  · rw [hpoint.number_eq, take_scanner hwhole, htext]

/-- Behind leading zeros stands the first number that is out of range. -/
theorem number_at_digit_outOfRange :
    let scanner := (start "x0009223372036854775808;".toList).run [.advance]
    scanner.cursor.current? = some '0' ∧ '0'.isDigit = true ∧
      ∃ digits rest, scanner.OnDigits digits rest ∧
        (rest.head? ≠ some '.' → scanner.ReadsWhole digits rest) ∧
        ∀ behind, rest = '.' :: behind →
          ∃ fraction rest' x, behind = fraction ++ rest' ∧ scanner.OnPoint digits fraction rest' ∧
            scanner.number.result = .real x ∧
            scanner.number.scanner = scanner.past (digits ++ '.' :: fraction) rest' :=
  ⟨rfl, rfl, number_at_digit rfl rfl⟩

/-! ## §5 Real numbers -/

/-- **A real number is read** for the exact number `q`, written as `literal`. -/
structure ReadsReal (scanner : Scanner) (literal : List Char) (q : ℚ) (x : Binary64) : Prop where
  result : scanner.number.result = .real x
  finite : x.isFinite = true
  positive : x.isNegative = false
  /-- In range it is the one number of the format that is nearest to `q`, where ties go to the
  even significand. -/
  nearest : q < Binary64.overflowLimit → ∀ y : Binary64, y.IsNearest q ↔ y = x
  /-- Then nothing is reported, even if it is the largest number of the format. -/
  silent : q < Binary64.overflowLimit → scanner.number.events = []
  /-- Only out of range it is the largest number of the format with a report, and with one
  report. -/
  largest_iff : (x = .largest ∧
      scanner.number.events.map Event.record = [saturationRecord .realLiteral literal]) ↔
    Binary64.overflowLimit ≤ q

theorem OnPoint.readsReal (hon : scanner.OnPoint whole fraction rest) :
    scanner.ReadsReal (whole ++ '.' :: fraction) (pointValue whole fraction)
      (realValue whole fraction) := by
  have hnearest := isNearest_realValue whole fraction
  have htext := text_real whole fraction
  have htoken := token_real whole fraction
  have hknown : (Lexeme.real whole fraction).token.kind = .realLiteral := congrArg Token.kind htoken
  have hrecords := records_take scanner hknown (.inr rfl)
  rw [htext, ← hon.number_eq] at hrecords
  have hsaturated : (Lexeme.real whole fraction).saturated = true ↔
      Binary64.overflowLimit ≤ pointValue whole fraction := by
    have hlimit := saturated_real hon.onDigits.all hon.all
    rwa [IsTooLarge, exactValue_real hon.onDigits.all hon.all, ← pointValue_eq] at hlimit
  constructor
  case result =>
    rw [hon.number_eq]
    exact htoken
  case finite => exact hnearest.finite
  case positive => exact hnearest.positive
  case nearest =>
    -- the nearest number is unique, so the value is the only candidate
    intro _ y
    exact ⟨fun hother => hother.unique hnearest, fun hsame => hsame ▸ hnearest⟩
  case silent =>
    intro hsmall
    rw [if_neg (mt hsaturated.mp (not_le.mpr hsmall))] at hrecords
    exact List.map_eq_nil_iff.mp hrecords
  case largest_iff =>
    constructor
    · rintro ⟨-, hreported⟩
      -- only what is too large is reported
      by_contra hsmall
      rw [hreported, if_neg (mt hsaturated.mp hsmall)] at hrecords
      cases hrecords
    · intro hlarge
      rw [if_pos (hsaturated.mpr hlarge)] at hrecords
      exact ⟨realValue_of_large hlarge, hrecords⟩

/-- **Real numbers are rounded correctly or the largest one**, whatever the lengths of the runs
of digits around the point are.  A literal for a greater number never has a smaller value. -/
theorem number_at_point (hon : scanner.OnPoint whole fraction rest) :
    ∃ x, scanner.ReadsReal (whole ++ '.' :: fraction) (pointValue whole fraction) x ∧
      ∀ (other : Scanner) (whole' fraction' rest' : List Char) (y : Binary64),
        other.OnPoint whole' fraction' rest' → other.number.result = .real y →
        pointValue whole fraction ≤ pointValue whole' fraction' →
        x.signedValue ≤ y.signedValue := by
  refine ⟨_, hon.readsReal, ?_⟩
  intro other whole' fraction' rest' y hon' hfound hle
  -- both values are nearest numbers, and rounding keeps the order
  have hsame : Token.real (realValue whole' fraction') = .real y :=
    hon'.readsReal.result.symm.trans hfound
  injection hsame with _ hvalue
  obtain rfl := TokenValue.real.inj (Option.some.inj hvalue)
  exact (isNearest_realValue whole fraction).mono (isNearest_realValue whole' fraction') hle

/-- The number `2 ^ 53 + 1` is half way between two numbers of the format. -/
theorem number_at_point_tie :
    let scanner := start "9007199254740993.)".toList
    let whole := "9007199254740993".toList
    scanner.OnPoint whole [] [')'] ∧ scanner.number.result = .real ⟨0x4340000000000000⟩ ∧
      ∃ x, scanner.ReadsReal (whole ++ ['.']) (pointValue whole []) x ∧
        ∀ (other : Scanner) (whole' fraction' rest' : List Char) (y : Binary64),
          other.OnPoint whole' fraction' rest' → other.number.result = .real y →
          pointValue whole [] ≤ pointValue whole' fraction' → x.signedValue ≤ y.signedValue := by
  intro scanner whole
  have hall : whole.all Char.isDigit = true := by decide +kernel
  have hon : scanner.OnPoint whole [] [')'] :=
    ⟨⟨by simp [whole], List.all_eq_true.mp hall, by simp, rfl⟩, by simp, by simp⟩
  exact ⟨hon, by decide +kernel, number_at_point hon⟩

end Scanner

end MiniPascal
