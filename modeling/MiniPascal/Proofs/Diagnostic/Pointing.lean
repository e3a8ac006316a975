import MiniPascal.Diagnostic.Basic
import MiniPascal.Proofs.Diagnostic.Cutting
import MiniPascal.Proofs.Grammar.Reading

/-!
# The Caret Stands Under the Offending Character

The span of a lexical error comes from the scanner, which counts lines and columns as it
goes.  The excerpt of that span is cut out of the whole program, which is split into
lines again.  Both speak of the same character:

- `exists_of_scan_error`: the text before a lexical error, and its span;
- `exists_cut_of_visible`: the excerpt of a single character that is no line end;
- `exists_rows`: its two printed rows, with one caret;
- `pointsAt_of_scan_error`: the caret is below the character.
-/

namespace MiniPascal

open Grammar

/-! ## §1 Where an error stands -/

/-- A scan that fails does so at a visible character, which its error names. -/
theorem exists_of_scan_error {source : String} {error : LexicalError}
    (hfailed : scan source = .error error) :
    ∃ before rest, source.toList = before ++ error.character :: rest ∧
      isBlank error.character = false ∧
      error.span = .upTo (Location.start.advance before)
        (byteLength (before ++ [error.character])) := by
  obtain ⟨pieces, ending, hparts⟩ := exists_decomposes source.toList
  have hwhole := hparts.text_eq
  cases ending with
  | finished gap =>
    -- a text that falls apart up to its end is scanned without an error
    obtain ⟨tokens, -, hresult⟩ := scan_of_finished hparts
    rw [String.ofList_toList, hfailed] at hresult
    cases hresult
  | stray gap c rest =>
    -- the error is at the stray character, behind all pieces and the last gap
    have hresult := scan_of_stray hparts
    rw [String.ofList_toList, hfailed] at hresult
    obtain rfl := Except.error.inj hresult
    refine ⟨pieces.flatMap Piece.text ++ gap, rest, ?_, hparts.isEnding.2.notBlank, ?_⟩
    · rw [hwhole, Ending.text, List.append_assoc]
    · rw [offset_advance_start, byteLength_append _ [c]]
      rfl

/-! ## §2 The excerpt of a character -/

/-- **The excerpt of one character.**  It is the line that holds the character, and marks
the character alone. -/
theorem exists_cut_of_visible {c : Char} (hnotFeed : c ≠ '\n') (hnotReturn : c ≠ '\r')
    (before rest : List Char) :
    let span := Span.upTo (Location.start.advance before) (byteLength (before ++ [c]))
    ∃ raw more, (splitLines (before ++ c :: rest))[span.line - 1]? = some raw ∧
      dropReturn raw = lastLine before ++ c :: more ∧
      Excerpt.cut (before ++ c :: rest) span
        = .ok ⟨String.ofList (dropReturn raw), span.line, span.column, span.column + 1, none⟩ := by
  intro span
  have hvisible : ∀ more, (c :: more).takeWhile (· ≠ '\n') = c :: more.takeWhile (· ≠ '\n') :=
    fun more => List.takeWhile_cons_of_pos (by simpa using hnotFeed)
  -- one character is a text, which a visible character shows as a whole
  obtain ⟨hfound, hcolumn, hcut⟩ := Excerpt.cut_text before [c] rest
  change span.column = 1 + (lastLine before).length at hcolumn
  rw [List.singleton_append, hvisible] at hfound hcut
  obtain ⟨more, hdropped⟩ := exists_dropReturn hnotReturn (lastLine before)
    (rest.takeWhile (· ≠ '\n'))
  -- the line goes on at least up to the character
  have hlast : min (span.column + ([c].takeWhile (· ≠ '\n')).length)
      ((dropReturn (lastLine before ++ c :: rest.takeWhile (· ≠ '\n'))).length + 1)
        = span.column + 1 := by
    rw [hvisible, hdropped, List.length_append, List.length_cons, List.length_cons,
      List.takeWhile_nil, List.length_nil]
    omega
  rw [hlast] at hcut
  exact ⟨_, more, hfound, hdropped, hcut⟩

/-! ## §3 The printed rows -/

namespace Excerpt

/-- An excerpt of one character has one caret, below the character. -/
theorem exists_rows {excerpt : Excerpt} {left more : List Char} {c : Char}
    (label : String) (hline : excerpt.line.toList = left ++ c :: more)
    (hfree : '\n' ∉ excerpt.line.toList) (hstart : excerpt.startColumn = 1 + left.length)
    (hsingle : excerpt.carets = 1) (hfeed : '\n' ∉ label.toList) (hcaret : '^' ∉ label.toList) :
    ∃ margin second,
      pieces '\n' (excerpt.withLabel label).text.toList
        = [margin ++ excerpt.line.toList, second] ∧
      (margin ++ excerpt.line.toList)[margin.length + (excerpt.startColumn - 1)]? = some c ∧
      ∀ i, second[i]? = some '^' ↔ i = margin.length + (excerpt.startColumn - 1) := by
  have hremark : (excerpt.withLabel label).remark = ' ' :: label.toList := rfl
  have hfeed : '\n' ∉ (excerpt.withLabel label).remark := by simp [hremark, hfeed]
  have hcaret : '^' ∉ (excerpt.withLabel label).remark := by simp [hremark, hcaret]
  refine ⟨excerpt.margin, _, pieces_text hfree hfeed, ?_, ?_⟩
  -- the margin and the characters before it stand in front of the character
  · have hindex : excerpt.startColumn - 1 = left.length := by omega
    rw [hindex, List.getElem?_append_right (Nat.le_add_right ..), Nat.add_sub_cancel_left, hline,
      List.getElem?_append_right (Nat.le_refl _), Nat.sub_self]
    rfl
  · -- a run of one caret has one place
    intro i
    have hcarets : (excerpt.withLabel label).carets = 1 := hsingle
    rw [getElem?_caretRow hcaret, hcarets]
    exact ⟨fun ⟨hreached, hinside⟩ => Nat.le_antisymm (Nat.le_of_lt_succ hinside) hreached,
      fun hsame => hsame ▸ ⟨Nat.le_refl _, Nat.lt_succ_self _⟩⟩

end Excerpt

/-! ## §4 Pointing -/

/-- An excerpt of a program points at the character of an error. -/
structure Excerpt.PointsAt (source : List Char) (error : LexicalError) (excerpt : Excerpt) :
    Prop where
  /-- Lines and columns are counted from one. -/
  counted : 1 ≤ error.span.line ∧ 1 ≤ error.span.column
  lineNumber : excerpt.lineNumber = error.span.line
  /-- The line is the one that the error names, without its carriage return. -/
  line : ∃ raw, (splitLines source)[error.span.line - 1]? = some raw ∧
    excerpt.line.toList = dropReturn raw
  /-- The stretch is one character long, and begins where the error says. -/
  startColumn : excerpt.startColumn = error.span.column
  endColumn : excerpt.endColumn = error.span.column + 1
  character : excerpt.line.toList[excerpt.startColumn - 1]? = some error.character
  /-- Printed, the only caret stands at the same distance from the left as the
  character. -/
  caret : ∃ margin second,
    pieces '\n' excerpt.text.toList = [margin ++ excerpt.line.toList, second] ∧
      (margin ++ excerpt.line.toList)[margin.length + (excerpt.startColumn - 1)]?
        = some error.character ∧
      ∀ i, second[i]? = some '^' ↔ i = margin.length + (excerpt.startColumn - 1)

/-- **The caret stands under the offending character.**  The span of a lexical error has an
excerpt, it is the only one in the diagnostic, and it points at the character. -/
theorem pointsAt_of_scan_error {source : String} {error : LexicalError}
    (hfailed : scan source = .error error) :
    ∃ excerpt, Excerpt.cut source.toList error.span = .ok excerpt ∧
      (error.diagnostic source.toList).excerpts = [excerpt.withLabel "not valid here"] ∧
      (excerpt.withLabel "not valid here").PointsAt source.toList error := by
  obtain ⟨before, rest, hwhole, hvisible, hplace⟩ := exists_of_scan_error hfailed
  -- line feeds and carriage returns are blank, so the character is neither
  have hnotFeed : error.character ≠ '\n' := by
    intro hsame
    rw [hsame] at hvisible
    exact absurd hvisible (by decide)
  have hnotReturn : error.character ≠ '\r' := by
    intro hsame
    rw [hsame] at hvisible
    exact absurd hvisible (by decide)
  obtain ⟨raw, more, hfound, hdropped, hcut⟩ :=
    exists_cut_of_visible hnotFeed hnotReturn before rest
  rw [← hplace, ← hwhole] at hcut hfound
  -- line and column are counted over the text before the character
  have hline : error.span.line = 1 + before.count '\n' := by
    rw [hplace]
    exact line_advance_start before
  have hcolumn : error.span.column = 1 + (lastLine before).length := by
    rw [hplace]
    exact column_advance_start before
  refine ⟨_, hcut, ?_, ?_⟩
  · rw [LexicalError.diagnostic, hcut]
    rfl
  -- from here on only the fields of the excerpt matter
  generalize hmade : Excerpt.mk _ _ _ _ _ = excerpt
  have htext : excerpt.line.toList = dropReturn raw := by
    rw [← hmade]
    exact String.toList_ofList
  have hstart : excerpt.startColumn = error.span.column := by rw [← hmade]
  have hstop : excerpt.endColumn = error.span.column + 1 := by rw [← hmade]
  have hnumber : excerpt.lineNumber = error.span.line := by rw [← hmade]
  -- the columns are one apart, which is one caret
  have hsingle : excerpt.carets = 1 := by
    rw [Excerpt.carets, hstart, hstop]
    omega
  have hfree : '\n' ∉ excerpt.line.toList := by
    rw [htext]
    exact lineFeed_not_mem_dropReturn (List.mem_of_getElem? hfound)
  have hcharacter : excerpt.line.toList[excerpt.startColumn - 1]? = some error.character := by
    have hindex : excerpt.startColumn - 1 = (lastLine before).length := by omega
    rw [htext, hdropped, hindex, List.getElem?_append_right (Nat.le_refl _), Nat.sub_self]
    rfl
  have hrows :=
    Excerpt.exists_rows "not valid here" (htext.trans hdropped) hfree (hstart.trans hcolumn)
      hsingle (by decide) (by decide)
  exact ⟨⟨by omega, by omega⟩, hnumber, ⟨raw, hfound, htext⟩, hstart, hstop, hcharacter, hrows⟩

/-- A character of two bytes and a carriage return stand before the error. -/
theorem pointsAt_of_scan_error_behind_comment :
    scan "\x7bé\x7d\r\n ?\r\n" = .error ⟨'?', ⟨7, 8, 2, 2⟩⟩ ∧
      ∃ excerpt, Excerpt.cut "\x7bé\x7d\r\n ?\r\n".toList ⟨7, 8, 2, 2⟩ = .ok excerpt ∧
        (LexicalError.diagnostic ⟨'?', ⟨7, 8, 2, 2⟩⟩ "\x7bé\x7d\r\n ?\r\n".toList).excerpts
          = [excerpt.withLabel "not valid here"] ∧
        (excerpt.withLabel "not valid here").PointsAt "\x7bé\x7d\r\n ?\r\n".toList
          ⟨'?', ⟨7, 8, 2, 2⟩⟩ := by
  have hblanks : IsGap ['\r', '\n', ' '] :=
    .blank (by decide) (.blank (by decide) (.blank (by decide) .nil))
  -- the comment and the blanks behind it are the gap in front of the stray character
  have hgap : IsGap ('\x7b' :: (['é'] ++ '\x7d' :: ['\r', '\n', ' '])) :=
    .comment (by decide) hblanks
  have hnone : Lexeme.first? ['?'] = none := rfl
  have hstray : IsStray '?' := ⟨by decide, by decide, first?_eq_none_iff.mp hnone⟩
  have hfailed : scan "\x7bé\x7d\r\n ?\r\n" = .error ⟨'?', ⟨7, 8, 2, 2⟩⟩ :=
    scan_of_stray (.stray hgap hstray)
  exact ⟨hfailed, pointsAt_of_scan_error hfailed⟩

end MiniPascal
