import MiniPascal.Proofs.Grammar.Reading
import MiniPascal.Proofs.Token.Spelling

/-!
# Spelled Tokens Are Scanned Again

The spellings of tokens, with a space between each two, are a program of its own.  It falls
apart into the spellings again (`exists_decomposes_intercalate`), so that scanning it gives
the tokens back (`scan_intercalate_valueText`).
-/

namespace MiniPascal

namespace Grammar

/-! ## §1 Lexemes with spaces between them -/

/-- The first lexeme of a list has no space before it, and each other one has. -/
theorem intercalate_cons_eq (first : List Char) (more : List (List Char)) :
    [' '].intercalate (first :: more) = first ++ more.flatMap (' ' :: ·) := by
  induction more generalizing first with
  | nil => simp
  | cons second more ih =>
    rw [List.intercalate_cons_cons, ih, List.flatMap_cons]
    simp

/-- A lexeme with such a list behind it ends where the list begins. -/
theorem IsLexeme.isLongest_spaced {lexeme : List Char} (hlexeme : IsLexeme lexeme)
    (more : List (List Char)) : IsLongest lexeme (lexeme ++ more.flatMap (' ' :: ·)) := by
  apply hlexeme.isLongest_append
  intro c hfirst
  cases more with
  | nil => cases hfirst
  | cons second more =>
    obtain rfl : ' ' = c := Option.some.inj hfirst
    decide

/-- Lexemes with a space before each fall apart at the spaces. -/
theorem decomposes_spaced {lexemes : List (List Char)}
    (hall : ∀ lexeme ∈ lexemes, IsLexeme lexeme) :
    Decomposes (lexemes.flatMap (' ' :: ·)) (lexemes.map fun lexeme => ⟨[' '], lexeme⟩)
      (.finished []) := by
  induction lexemes with
  | nil => exact .finished (.closed .nil)
  | cons lexeme more ih =>
    obtain ⟨hlexeme, hothers⟩ := List.forall_mem_cons.mp hall
    -- the space is the gap before the lexeme
    apply Decomposes.lexeme (.blank (by decide) .nil)
    · exact hlexeme.isLongest_spaced more
    · exact ih hothers

/-- **Spaces keep lexemes apart.** -/
theorem exists_decomposes_intercalate {lexemes : List (List Char)}
    (hall : ∀ lexeme ∈ lexemes, IsLexeme lexeme) :
    ∃ pieces, pieces.map Piece.lexeme = lexemes ∧
      Decomposes ([' '].intercalate lexemes) pieces (.finished []) := by
  cases lexemes with
  | nil => exact ⟨[], rfl, .finished (.closed .nil)⟩
  | cons first more =>
    obtain ⟨hlexeme, hothers⟩ := List.forall_mem_cons.mp hall
    refine ⟨⟨[], first⟩ :: more.map fun lexeme => ⟨[' '], lexeme⟩, ?_, ?_⟩
    · rw [List.map_cons, List.map_map]
      exact congrArg (first :: ·) (List.map_id more)
    · -- the first lexeme has an empty gap before it
      rw [intercalate_cons_eq]
      apply Decomposes.lexeme .nil
      · exact hlexeme.isLongest_spaced more
      · exact decomposes_spaced hothers

end Grammar

/-! ## §2 Scanning what was spelled -/

open Grammar

/-- A text of lexemes with spaces between them gives the tokens that they denote. -/
theorem scan_intercalate {lexemes : List (List Char)} {tokens : List Token}
    (heach : List.Forall₂ Denotes lexemes tokens) :
    scan (String.ofList ([' '].intercalate lexemes)) = .ok (tokens ++ [.endOfInput]) := by
  have hall : ∀ lexeme ∈ lexemes, IsLexeme lexeme := by
    induction heach with
    | nil => simp
    | cons hdenotes _ ih => exact List.forall_mem_cons.mpr ⟨hdenotes.isLexeme, ih⟩
  obtain ⟨pieces, rfl, hparts⟩ := exists_decomposes_intercalate hall
  obtain ⟨found, heach', hresult⟩ := scan_of_finished hparts
  -- a lexeme denotes one token only
  obtain rfl :=
    List.right_unique_forall₂' (fun _ _ _ hleft hright => hleft.unique hright) heach' heach
  exact hresult

/-- **Spelling and scanning.**  Tokens that can be spelled out are scanned again from their
value texts, joined by single spaces. -/
theorem scan_intercalate_valueText (tokens : List Token)
    (hall : ∀ token ∈ tokens, token.IsSpellable) :
    scan (" ".intercalate (tokens.map Token.valueText)) = .ok (tokens ++ [.endOfInput]) := by
  have heach : List.Forall₂ Denotes ((tokens.map Token.valueText).map String.toList) tokens := by
    induction tokens with
    | nil => exact .nil
    | cons token more ih =>
      obtain ⟨hspellable, hothers⟩ := List.forall_mem_cons.mp hall
      exact .cons hspellable.denotes (ih hothers)
  have hsame : " ".intercalate (tokens.map Token.valueText)
      = String.ofList ([' '].intercalate ((tokens.map Token.valueText).map String.toList)) := by
    rw [← String.toList_inj, String.toList_intercalate, String.toList_ofList,
      String.toList_ofList]
  rw [hsame]
  exact scan_intercalate heach

/-- A reserved word, an assignment sign, the largest integer, the least and the greatest real
number that are written without a power of ten, and a name. -/
theorem scan_intercalate_valueText_bounds :
    let least := (Binary64.ofQuotient? 1 (10 ^ 4)).getD .largest
    let greatest := (Binary64.ofQuotient? (10 ^ 16 - 2) 1).getD .largest
    let tokens : List Token := [.spelled .endWord "END", .spelled .assign ":=",
      .integer Token.largestInteger, .real least, .real greatest, .identifier "x1"]
    " ".intercalate (tokens.map Token.valueText)
        = "END := 9223372036854775807 0.0001 9999999999999998.0 x1" ∧
      scan (" ".intercalate (tokens.map Token.valueText)) = .ok (tokens ++ [.endOfInput]) := by
  intro least greatest tokens
  have hname : IsName ['x', '1'] :=
    ⟨⟨'x', ['1'], rfl, rfl, List.forall_mem_singleton.mpr rfl⟩, by decide⟩
  have hall : ∀ token ∈ tokens, token.IsSpellable := by
    simp only [tokens, List.forall_mem_cons, List.not_mem_nil]
    refine ⟨?_, ?_, ?_, ?_, ?_, ?_, ?_⟩
    · exact .reserved ((mem_reservedWords_iff _ _).mpr ⟨.endWord, rfl, rfl⟩)
    · exact .mark rfl nofun
    · exact .integer (Nat.le_refl _)
    · exact .real (by decide)
    · exact .real (by decide)
    · exact .identifier hname
    · nofun
  exact ⟨by decide +kernel, scan_intercalate_valueText tokens hall⟩

end MiniPascal
