import MiniPascal.Proofs.Grammar.Lookahead
import MiniPascal.Proofs.Numeral.Characters
import MiniPascal.Proofs.Numeral.PlainText

/-!
# How Tokens Are Spelled

The text of a token's value is either the text that the token was scanned from or another
spelling of it.  No such text has a blank in it (`Denotes.isBlank_valueText`), and for the
tokens whose values are written as the language writes them it denotes the token again
(`Token.IsSpellable.denotes`).
-/

namespace MiniPascal

open Grammar

/-! ## §1 Names and other spellings -/

/-- A name: a letter with letters and digits behind it, and in no case a reserved word. -/
structure IsName (text : List Char) : Prop where
  exists_parts : ∃ first more, text = first :: more ∧ first.isAlpha = true ∧
    ∀ c ∈ more, c.isAlphanum = true
  notReserved : ∀ entry ∈ reservedWords, upperCase (String.ofList text) ≠ entry.1

/-- No entry of the table is met in upper case if no kind has the word. -/
theorem notReserved_iff (text : List Char) :
    (∀ entry ∈ reservedWords, upperCase (String.ofList text) ≠ entry.1) ↔
      ∀ kind word, TokenKind.reservedWord? kind = some word →
        text.map Char.toUpper ≠ word.toList := by
  -- texts are compared as lists of characters on one side, and as strings on the other
  have hupper (word : String) :
      upperCase (String.ofList text) = word ↔ text.map Char.toUpper = word.toList := by
    rw [upperCase, String.toList_ofList]
    constructor
    · rintro rfl
      rw [String.toList_ofList]
    · intro hsame
      rw [hsame, String.ofList_toList]
  constructor
  · intro hfree kind word hknown hsame
    have hlisted := (mem_reservedWords_iff word (.spelled kind word)).mpr ⟨kind, hknown, rfl⟩
    exact hfree _ hlisted ((hupper word).mpr hsame)
  · rintro hfree ⟨word, token⟩ hlisted hsame
    obtain ⟨kind, hknown, -⟩ := (mem_reservedWords_iff word token).mp hlisted
    exact hfree kind word hknown ((hupper word).mp hsame)

theorem IsName.denotes {text : List Char} (hname : IsName text) :
    Denotes text (.identifier (String.ofList text)) := by
  obtain ⟨first, more, rfl, hletter, hall⟩ := hname.exists_parts
  exact .name hletter hall ((notReserved_iff _).mp hname.notReserved)

/-- A reserved word is its own spelling. -/
theorem denotes_reservedWord {kind : TokenKind} {word : String}
    (hknown : kind.reservedWord? = some word) : Denotes word.toList (.spelled kind word) := by
  refine .reserved hknown ?_
  -- one word after the other, as the table is finite
  cases kind <;> simp only [TokenKind.reservedWord?, reduceCtorEq, Option.some.injEq] at hknown <;>
    subst hknown <;> decide

/-- A symbol is its own spelling, except for the one that no program may contain. -/
theorem denotes_symbol {kind : TokenKind} {symbol : String} (hknown : kind.symbol? = some symbol)
    (hscanned : kind ≠ .backslash) : Denotes symbol.toList (.spelled kind symbol) := by
  cases kind <;> simp only [TokenKind.symbol?, reduceCtorEq, Option.some.injEq] at hknown <;>
    subst hknown
  case backslash => exact absurd rfl hscanned
  case assign => exact .assign
  -- every other symbol is a mark of one character
  all_goals exact .mark (by decide) rfl

/-- The digits of a number denote it as long as it is in range. -/
theorem denotes_decimal {n : Nat} (hsmall : n ≤ Token.largestInteger) :
    Denotes (decimal n) (.integer n) := by
  have hliteral := Denotes.integer (decimal_ne_nil n) (isDigit_of_mem_decimal n)
  rwa [digitsValue_decimal, Nat.min_eq_left hsmall] at hliteral

/-- The number of a literal is finite and has no sign, even if the literal is too large. -/
theorem realValue_finite (whole fraction : List Char) :
    (realValue whole fraction).isFinite = true ∧ (realValue whole fraction).isNegative = false := by
  unfold realValue
  cases hfound : Binary64.ofQuotient? (digitsValue (whole ++ fraction))
      (Nat.pow 10 fraction.length) with
  -- the largest number stands for those that are too large
  | none => exact ⟨by decide, by decide⟩
  | some x =>
    obtain ⟨hfinite, hpositive, -⟩ := Binary64.of_ofQuotient? hfound
    exact ⟨hfinite, hpositive⟩

/-! ## §2 Value texts -/

/-- **No value is written with a blank.** -/
theorem Grammar.Denotes.isBlank_valueText {lexeme : List Char} {token : Token}
    (hdenotes : Denotes lexeme token) {c : Char} (hinside : c ∈ token.valueText.toList) :
    isBlank c = false := by
  cases hdenotes with
  | integer => exact isBlank_of_isNumeral (isNumeral_of_mem_integerText hinside)
  | @real whole fraction =>
    obtain ⟨hfinite, hpositive⟩ := realValue_finite whole fraction
    have htext : (Token.real (realValue whole fraction)).valueText
        = plainLayout.finite (realValue whole fraction) :=
      Binary64.plainText_eq_finite hfinite
    rw [htext] at hinside
    exact isBlank_of_isNumeral (isNumeral_of_mem_finite (by decide) hinside)
  -- the other values are written as lexemes, though not always as the one that was read
  | reserved hknown => exact (denotes_reservedWord hknown).isLexeme.isBlank_of_mem hinside
  | name hletter hall =>
    have hinside : c ∈ (String.ofList _).toList := hinside
    rw [String.toList_ofList] at hinside
    exact (IsLexeme.word hletter hall).isBlank_of_mem hinside
  | assign => exact IsLexeme.assign.isBlank_of_mem hinside
  | mark hknown =>
    have hinside : c ∈ (String.singleton _).toList := hinside
    rw [String.toList_singleton] at hinside
    exact (IsLexeme.mark hknown).isBlank_of_mem hinside

namespace Token

/-- **Tokens that can be spelled out**: those whose value is written as the language
writes it. -/
inductive IsSpellable : Token → Prop where
  | reserved {word : String} {token : Token} (hlisted : (word, token) ∈ reservedWords) :
      IsSpellable token
  | mark {kind : TokenKind} {symbol : String} (hknown : kind.symbol? = some symbol)
      (hscanned : kind ≠ .backslash) : IsSpellable (.spelled kind symbol)
  | identifier {text : List Char} (hname : IsName text) :
      IsSpellable (.identifier (String.ofList text))
  | integer {n : Nat} (hsmall : n ≤ largestInteger) : IsSpellable (.integer n)
  | real {x : Binary64} (hplain : x.IsPlain) : IsSpellable (.real x)

/-- **A spelling denotes its token again.** -/
theorem IsSpellable.denotes {token : Token} (hspellable : token.IsSpellable) :
    Denotes token.valueText.toList token := by
  cases hspellable with
  | @reserved word _ hlisted =>
    obtain ⟨kind, hknown, rfl⟩ := (mem_reservedWords_iff word token).mp hlisted
    exact denotes_reservedWord hknown
  | mark hknown hscanned => exact denotes_symbol hknown hscanned
  | @identifier text hname =>
    show Denotes (String.ofList text).toList _
    rw [String.toList_ofList]
    exact hname.denotes
  | @integer n hsmall =>
    show Denotes (String.ofList (decimal n)).toList _
    rw [String.toList_ofList]
    exact denotes_decimal hsmall
  | real hplain => exact Binary64.denotes_plainText hplain

end Token

end MiniPascal
