import MiniPascal.Proofs.Grammar.Lookahead
import MiniPascal.Proofs.Text.LineEnds

/-!
# The Grammar Takes No Notice of Line Ends

A carriage return is blank, and so is the line feed behind it.  So a text falls apart in the
same way when carriage returns are added to its line ends: gaps stay gaps, lexemes are not
changed at all because they stand on one line, and none of them becomes longer.
-/

namespace MiniPascal.Grammar

variable {lexeme rest gap : List Char}

/-! ## §1 Gaps -/

theorem IsGap.addReturns (hgap : IsGap gap) : IsGap (addReturns gap) := by
  induction hgap with
  | nil => exact .nil
  | @blank c more hblank _ ih =>
    -- a carriage return is a blank, so it makes the gap longer by one separator
    by_cases hfeed : c = '\n'
    · subst hfeed
      rw [addReturns_cons_lineFeed]
      exact .blank (by decide) (.blank hblank ih)
    · rw [addReturns_cons hfeed]
      exact .blank hblank ih
  | comment hclosed _ ih =>
    -- inside a comment anything may be added but a closing brace
    rw [addReturns_cons (by decide), addReturns_append, addReturns_cons (by decide)]
    exact .comment (fun hinside => hclosed (mem_of_mem_addReturns hinside (by decide))) ih

theorem IsLastGap.addReturns (hlast : IsLastGap gap) : IsLastGap (addReturns gap) := by
  cases hlast with
  | closed hgap => exact .closed hgap.addReturns
  | unclosed hbefore hunclosed =>
    rw [addReturns_append, addReturns_cons (by decide)]
    exact .unclosed hbefore.addReturns
      (fun hinside => hunclosed (mem_of_mem_addReturns hinside (by decide)))

/-! ## §2 Lexemes -/

/-- A lexeme stands on one line. -/
theorem IsLexeme.lineFeed_not_mem (hlexeme : IsLexeme lexeme) : '\n' ∉ lexeme := by
  intro hinside
  have hblank := hlexeme.isBlank_of_mem hinside
  cases hblank

theorem IsLexeme.addReturns_eq (hlexeme : IsLexeme lexeme) :
    MiniPascal.addReturns lexeme = lexeme :=
  addReturns_of_not_mem hlexeme.lineFeed_not_mem

/-- **A lexeme goes as far as before**: a line end behind it does not continue it in either
style. -/
theorem IsLongest.addReturns (hlongest : IsLongest lexeme (lexeme ++ rest)) :
    IsLongest lexeme (lexeme ++ MiniPascal.addReturns rest) := by
  have hapart := (isLongest_append_iff hlongest.isLexeme).mp hlongest
  apply (isLongest_append_iff hlongest.isLexeme).mpr
  intro c hfirst
  -- behind the lexeme stands what stood there before, or a carriage return, which is a blank
  rcases head?_addReturns hfirst with rfl | hsame
  · intro hcontinued
    have hblank := hcontinued.isBlank_of_mem (c := '\r') (by simp)
    cases hblank
  · exact hapart c hsame

theorem IsStray.ne_lineFeed {c : Char} (hstray : IsStray c) : c ≠ '\n' := by
  rintro rfl
  have hblank := hstray.notBlank
  cases hblank

end MiniPascal.Grammar
