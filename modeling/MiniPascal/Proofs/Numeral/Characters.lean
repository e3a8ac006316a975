import MiniPascal.Numeral.Layout
import MiniPascal.Proofs.Grammar.LongestLexeme

/-!
# The Characters of Numbers

The text of a number, in any layout, consists of digits, points, signs and the letter of
the power of ten (`isNumeral_of_mem_finite`).  Texts of other values and separators between
values can be told from it by one character.
-/

namespace MiniPascal

/-! ## §1 Characters -/

/-- The characters that numbers are written with. -/
def isNumeral (c : Char) : Bool :=
  c.isDigit || c == '.' || c == 'e' || c == '-' || c == '+'

theorem isNumeral_of_isDigit {c : Char} (hdigit : c.isDigit = true) : isNumeral c = true := by
  simp [isNumeral, hdigit]

/-- No number has a blank in it. -/
theorem isBlank_of_isNumeral {c : Char} (hnumeral : isNumeral c = true) : isBlank c = false := by
  simp only [isNumeral, Bool.or_eq_true, beq_iff_eq] at hnumeral
  rcases hnumeral with (((hdigit | rfl) | rfl) | rfl) | rfl
  · exact Grammar.isBlank_of_isDigit hdigit
  all_goals decide

/-! ## §2 Digits and powers -/

theorem isNumeral_of_mem_decimal {n : Nat} {c : Char} (hinside : c ∈ decimal n) :
    isNumeral c = true :=
  isNumeral_of_isDigit (isDigit_of_mem_decimal n c hinside)

theorem isNumeral_of_mem_integerText {n : Int} {c : Char} (hinside : c ∈ (integerText n).toList) :
    isNumeral c = true := by
  cases n with
  | ofNat n =>
    rw [integerText, String.toList_ofList] at hinside
    exact isNumeral_of_mem_decimal hinside
  | negSucc n =>
    rw [integerText, String.toList_ofList] at hinside
    rcases List.mem_cons.mp hinside with rfl | hinside
    · rfl
    · exact isNumeral_of_mem_decimal hinside

/-! ## §3 Layouts -/

section Layouts

variable {digits : List Char} {leading : Int} {mark : String} {c : Char}

theorem isNumeral_of_mem_positional (hall : ∀ c ∈ digits, isNumeral c = true)
    (hinside : c ∈ positional digits leading) : isNumeral c = true := by
  -- wherever the point stands, only digits and zeros are around it
  unfold positional at hinside
  dsimp only at hinside
  split at hinside
  · simp only [List.mem_cons, List.mem_append, List.mem_replicate] at hinside
    rcases hinside with rfl | rfl | ⟨-, rfl⟩ | hdigit
    · rfl
    · rfl
    · rfl
    · exact hall c hdigit
  · split at hinside
    · simp only [List.mem_cons, List.mem_append, List.mem_replicate, List.not_mem_nil,
        or_false] at hinside
      rcases hinside with (hdigit | ⟨-, rfl⟩) | rfl | rfl
      · exact hall c hdigit
      · rfl
      · rfl
      · rfl
    · rcases List.mem_append.mp hinside with hdigit | hbehind
      · exact hall c (List.mem_of_mem_take hdigit)
      · rcases List.mem_cons.mp hbehind with rfl | hdigit
        · rfl
        · exact hall c (List.mem_of_mem_drop hdigit)

theorem isNumeral_of_mem_scientific (hall : ∀ c ∈ digits, isNumeral c = true)
    (hsigns : ∀ c ∈ mark.toList, isNumeral c = true)
    (hinside : c ∈ scientific mark digits leading) : isNumeral c = true := by
  unfold scientific at hinside
  dsimp only at hinside
  rcases List.mem_append.mp hinside with hmantissa | hpower
  -- a mantissa has the digits and at most a point
  · split at hmantissa
    · simp only [List.mem_cons] at hmantissa
      rcases hmantissa with rfl | rfl | rfl | hdigit
      · exact hall _ (by simp)
      · rfl
      · exact hall _ (by simp)
      · exact hall _ (by simp [hdigit])
    · exact hall c hmantissa
  · rcases List.mem_cons.mp hpower with rfl | hpower
    · rfl
    · rw [String.toList_append] at hpower
      rcases List.mem_append.mp hpower with hsign | hdigit
      · split at hsign
        · exact hsigns c hsign
        · cases hsign
      · exact isNumeral_of_mem_integerText hdigit

end Layouts

/-- **The text of a finite number** in a layout whose mark is a sign. -/
theorem isNumeral_of_mem_finite {layout : RealLayout} {x : Binary64} {c : Char}
    (hsigns : layout.positiveMark.toList.all isNumeral = true)
    (hinside : c ∈ (layout.finite x).toList) : isNumeral c = true := by
  have habsolute : ∀ c ∈ layout.absolute x, isNumeral c = true := by
    intro c hc
    unfold RealLayout.absolute at hc
    dsimp only at hc
    split at hc
    · have hzero : "0.0".toList.all isNumeral = true := by decide
      exact List.all_eq_true.mp hzero c hc
    · split at hc
      · exact isNumeral_of_mem_positional (fun _ => isNumeral_of_mem_decimal) hc
      · exact isNumeral_of_mem_scientific (fun _ => isNumeral_of_mem_decimal)
          (List.all_eq_true.mp hsigns) hc
  rw [RealLayout.finite, String.toList_ofList] at hinside
  split at hinside
  · rcases List.mem_cons.mp hinside with rfl | hinside
    · rfl
    · exact habsolute c hinside
  · exact habsolute c hinside

end MiniPascal
