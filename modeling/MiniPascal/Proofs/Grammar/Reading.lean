import MiniPascal.Proofs.Grammar.Decomposition
import MiniPascal.Scan.Reading
import Mathlib.Data.List.Forall2

/-!
# A Scanner Reads the Decomposition

What a scanner does next is settled by how the rest of its text falls apart.  §1 says
this of one token, §2 of a reading to the end: `readAll_reads` gives, for each piece of
the decomposition, the token of its lexeme with the span between the end of the gap and
the end of the lexeme, and for the ending the end of input or the error.

The last section collects the decomposition of a whole program
(`scan_by_unique_decomposition`).
-/

namespace MiniPascal.Grammar

/-! ## §1 One token -/

section Step

variable {scanner : Scanner} {gap rest : List Char}

/-- Separators are passed as a whole, and the start of the token is marked behind
them. -/
theorem scanner_skipSeparators (hwhole : scanner.cursor.rest = gap ++ rest)
    (hsplit : (Separator.split scanner.cursor.rest).2 = rest) :
    scanner.skipSeparators.scanner
      = ⟨⟨scanner.cursor.source, rest, scanner.cursor.location.advance gap⟩,
          scanner.cursor.location.advance gap, scanner.finished⟩ := by
  -- the text in front of `rest` is what the separators are spelled with
  have hparts := Separator.spellAll_append_of_split scanner.cursor.rest
  have hpassed : Separator.spellAll (Separator.split scanner.cursor.rest).1 = gap := by
    rw [hsplit] at hparts
    conv_rhs at hparts => rw [hwhole]
    exact List.append_cancel_right hparts
  simp only [Scanner.skipSeparators, Scanner.drop, Scanner.markStart, hpassed]
  rw [Cursor.drop_length hwhole]

/-- At its last gap a text has no more tokens. -/
theorem nextToken_of_lastGap (hlast : IsLastGap scanner.cursor.rest) :
    scanner.nextToken.result = .ok .endOfInput ∧
      scanner.nextToken.scanner
        = ⟨⟨scanner.cursor.source, [], scanner.cursor.location.advance scanner.cursor.rest⟩,
            scanner.cursor.location.advance scanner.cursor.rest, scanner.finished⟩ := by
  -- the last gap is all that is left, and nothing stands behind it
  have hhere := scanner_skipSeparators (List.append_nil _).symm (rest_split_lastGap hlast)
  unfold Scanner.nextToken
  constructor <;> simp only [hhere]

/-- At a stray character there is an error, and the scanner stays there. -/
theorem nextToken_of_stray {c : Char} (hbefore : IsGap gap) (hstray : IsStray c)
    (hwhole : scanner.cursor.rest = gap ++ c :: rest) :
    scanner.nextToken.result
        = .error ⟨c, .upTo (scanner.cursor.location.advance gap)
            ((scanner.cursor.location.advance gap).offset + c.utf8Size)⟩ ∧
      scanner.nextToken.scanner
        = ⟨⟨scanner.cursor.source, c :: rest, scanner.cursor.location.advance gap⟩,
            scanner.cursor.location.advance gap, scanner.finished⟩ := by
  have hsplit : (Separator.split scanner.cursor.rest).2 = c :: rest := by
    rw [hwhole, rest_split_of_not_starts hbefore (hstray.stops rest)]
  have hhere := scanner_skipSeparators hwhole hsplit
  -- a stray character begins no lexeme, so none is found
  have hnone : Lexeme.first? (c :: rest) = .none := first?_eq_none_iff.mpr hstray.noLexeme
  unfold Scanner.nextToken
  simp only [hhere, hnone]
  exact ⟨rfl, trivial⟩

/-- Behind a gap the longest lexeme is read, and the scanner moves behind it. -/
theorem nextToken_of_lexeme {lexeme : List Char} (hbefore : IsGap gap)
    (hlongest : IsLongest lexeme (lexeme ++ rest))
    (hwhole : scanner.cursor.rest = gap ++ (lexeme ++ rest)) :
    ∃ token, Denotes lexeme token ∧ scanner.nextToken.result = .ok token ∧
      scanner.nextToken.scanner
        = ⟨⟨scanner.cursor.source, rest, scanner.cursor.location.advance (gap ++ lexeme)⟩,
            scanner.cursor.location.advance gap, scanner.finished⟩ := by
  have hsplit : (Separator.split scanner.cursor.rest).2 = lexeme ++ rest := by
    rw [hwhole, rest_split_of_not_starts hbefore hlongest.stops]
  have hhere := scanner_skipSeparators hwhole hsplit
  -- of what stands behind the gap the longest lexeme is taken
  obtain ⟨read, hfound, htext, hdenotes⟩ := hlongest.first?
  refine ⟨read.token, hdenotes, ?_⟩
  have hinside := hlongest.isLexeme.ne_nil
  unfold Scanner.nextToken
  simp only [hhere]
  split
  · -- the lexeme has a character
    rename_i hnil
    exact absurd (List.append_eq_nil_iff.mp hnil).1 hinside
  · simp only [hfound, Scanner.take, Scanner.drop, htext]
    rw [Cursor.drop_length rfl, Location.advance_append]
    exact ⟨trivial, rfl⟩

theorem Denotes.kind_ne_endOfInput {lexeme : List Char} {token : Token}
    (hdenotes : Denotes lexeme token) : token.kind ≠ .endOfInput := by
  -- neither a word nor a symbol belongs to the kind of the end of input
  cases hdenotes with
  | integer => simp [Token.integer]
  | real => simp [Token.real]
  | @reserved _ kind _ hknown =>
    rintro rfl
    cases hknown
  | name => simp [Token.identifier, Token.spelled]
  | assign => simp [Token.spelled]
  | mark _ hsame =>
    rintro rfl
    cases hsame

end Step

/-! ## §2 A reading to the end -/

section Unfold

variable {scanner : Scanner}

theorem readAll_of_error {error : LexicalError}
    (hfailed : scanner.nextToken.result = .error error) :
    scanner.readAll
      = ⟨[], some error, scanner.nextToken.events, scanner.nextToken.scanner⟩ := by
  rw [Scanner.readAll]
  split
  · rename_i hfound
    rw [hfound] at hfailed ⊢
    obtain rfl := Except.error.inj hfailed
    rfl
  · rename_i hfound
    rw [hfound] at hfailed
    cases hfailed

theorem readAll_of_endOfInput (hended : scanner.nextToken.result = .ok .endOfInput) :
    scanner.readAll
      = ⟨[⟨.endOfInput, scanner.nextToken.scanner.tokenSpan⟩], none, scanner.nextToken.events,
          scanner.nextToken.scanner⟩ := by
  rw [Scanner.readAll]
  split
  · rename_i hfound
    rw [hfound] at hended
    cases hended
  · rename_i hfound
    rw [hfound] at hended ⊢
    obtain rfl := Except.ok.inj hended
    rfl

theorem readAll_of_token {token : Token} (hfound : scanner.nextToken.result = .ok token)
    (hinside : token.kind ≠ .endOfInput) :
    scanner.readAll
      = ⟨⟨token, scanner.nextToken.scanner.tokenSpan⟩ :: scanner.nextToken.scanner.readAll.tokens,
          scanner.nextToken.scanner.readAll.error?,
          scanner.nextToken.events ++ scanner.nextToken.scanner.readAll.events,
          scanner.nextToken.scanner.readAll.scanner⟩ := by
  rw [Scanner.readAll]
  split
  · rename_i hfailed
    rw [hfailed] at hfound
    cases hfound
  · rename_i token' events after hnext
    rw [hnext] at hfound ⊢
    obtain rfl := Except.ok.inj hfound
    -- the reading goes on, since the token is not the end of input
    rw [dif_pos hinside]

end Unfold

/-- **What is read of a decomposition** that begins at a place: the tokens with their
spans, and the error if there is one. -/
inductive Reads : Location → List Piece → Ending → List PlacedToken → Option LexicalError → Prop
    where
  | finished {here : Location} {gap : List Char} :
      Reads here [] (.finished gap)
        [⟨.endOfInput, .upTo (here.advance gap) (here.advance gap).offset⟩] none
  | stray {here : Location} {gap rest : List Char} {c : Char} :
      Reads here [] (.stray gap c rest) []
        (some ⟨c, .upTo (here.advance gap) ((here.advance gap).offset + c.utf8Size)⟩)
  | lexeme {here : Location} {gap lexeme : List Char} {pieces : List Piece} {ending : Ending}
      {token : Token} {tokens : List PlacedToken} {error? : Option LexicalError}
      (hdenotes : Denotes lexeme token)
      (hmore : Reads (here.advance (gap ++ lexeme)) pieces ending tokens error?) :
      Reads here (⟨gap, lexeme⟩ :: pieces) ending
        (⟨token, .upTo (here.advance gap) (here.advance (gap ++ lexeme)).offset⟩ :: tokens) error?

/-- **A scanner reads the decomposition** of the rest of its text. -/
theorem readAll_reads {scanner : Scanner} {text : List Char} {pieces : List Piece}
    {ending : Ending} (hparts : Decomposes text pieces ending)
    (hwhole : scanner.cursor.rest = text) :
    Reads scanner.cursor.location pieces ending scanner.readAll.tokens
      scanner.readAll.error? := by
  -- one token for each piece, and from there on with the scanner that reading it leaves
  induction hparts generalizing scanner with
  | finished hlast =>
    obtain ⟨hresult, hafter⟩ := nextToken_of_lastGap (hwhole ▸ hlast)
    rw [readAll_of_endOfInput hresult, hafter, hwhole]
    exact .finished
  | stray hbefore hstray =>
    obtain ⟨hresult, -⟩ := nextToken_of_stray hbefore hstray hwhole
    rw [readAll_of_error hresult]
    exact .stray
  | lexeme hbefore hlongest _ ih =>
    obtain ⟨token, hdenotes, hresult, hafter⟩ := nextToken_of_lexeme hbefore hlongest hwhole
    rw [readAll_of_token hresult hdenotes.kind_ne_endOfInput]
    -- the induction is on the pieces, so the scanner behind the lexeme is put into the hypothesis
    have hmore := @ih scanner.nextToken.scanner (by rw [hafter])
    rw [hafter] at hmore ⊢
    exact .lexeme hdenotes hmore

/-- The tokens of a reading are denoted by the lexemes; the end of input follows them
unless there is an error. -/
theorem Reads.denotes {here : Location} {pieces : List Piece} {ending : Ending}
    {tokens : List PlacedToken} {error? : Option LexicalError}
    (hreads : Reads here pieces ending tokens error?) :
    ∃ found, List.Forall₂ Denotes (pieces.map Piece.lexeme) found ∧
      tokens.map PlacedToken.token = found ++ if error?.isNone then [.endOfInput] else [] := by
  induction hreads with
  | finished => exact ⟨[], .nil, rfl⟩
  | stray => exact ⟨[], .nil, rfl⟩
  | lexeme hdenotes _ ih =>
    obtain ⟨found, heach, htokens⟩ := ih
    exact ⟨_ :: found, .cons hdenotes heach, by rw [List.map_cons, htokens]; rfl⟩

/-- The error of an ending that begins at a place. -/
def Ending.error? (here : Location) : Ending → Option LexicalError
  | finished _ => none
  | stray gap c _ =>
    some ⟨c, .upTo (here.advance gap) ((here.advance gap).offset + c.utf8Size)⟩

/-- The error is that of the ending, behind the pieces. -/
theorem Reads.error?_eq {here : Location} {pieces : List Piece} {ending : Ending}
    {tokens : List PlacedToken} {error? : Option LexicalError}
    (hreads : Reads here pieces ending tokens error?) :
    error? = ending.error? (here.advance (pieces.flatMap Piece.text)) := by
  -- the place of the ending is found by passing the pieces before it
  induction hreads with
  | finished => rfl
  | stray => rfl
  | lexeme _ _ ih =>
    rw [ih, List.flatMap_cons, Location.advance_append _ (Piece.text _)]
    rfl

/-! ## §3 Whole programs -/

section Programs

variable {text : List Char} {pieces : List Piece}

theorem readProgram_reads {ending : Ending} (hparts : Decomposes text pieces ending) :
    Reads .start pieces ending (readProgram (String.ofList text)).tokens
      (readProgram (String.ofList text)).error? := by
  have hreads := @readAll_reads (.start text) _ _ _ hparts rfl
  rwa [← String.toList_ofList (l := text)] at hreads

/-- A text that falls apart up to its end gives the tokens of its lexemes. -/
theorem scan_of_finished {gap : List Char} (hparts : Decomposes text pieces (.finished gap)) :
    ∃ tokens, List.Forall₂ Denotes (pieces.map Piece.lexeme) tokens ∧
      scan (String.ofList text) = .ok (tokens ++ [.endOfInput]) := by
  have hreads := readProgram_reads hparts
  obtain ⟨tokens, heach, hwhole⟩ := hreads.denotes
  refine ⟨tokens, heach, ?_⟩
  have hcomplete := hreads.error?_eq
  rw [scan, Reading.outcome, hcomplete, hwhole, hcomplete]
  rfl

/-- A text with a stray character gives the error at it. -/
theorem scan_of_stray {gap rest : List Char} {c : Char}
    (hparts : Decomposes text pieces (.stray gap c rest)) :
    scan (String.ofList text)
      = .error ⟨c, .upTo (Location.start.advance (pieces.flatMap Piece.text ++ gap))
          ((Location.start.advance (pieces.flatMap Piece.text ++ gap)).offset + c.utf8Size)⟩ := by
  have hreads := readProgram_reads hparts
  rw [scan, Reading.outcome, hreads.error?_eq, Location.advance_append]
  rfl

theorem scan_of_lastGap {gap : List Char} (hlast : IsLastGap gap) :
    scan (String.ofList gap) = .ok [.endOfInput] := by
  obtain ⟨tokens, heach, hresult⟩ := scan_of_finished (.finished hlast)
  cases heach
  exact hresult

theorem scan_of_denotes {lexeme : List Char} {token : Token} (hdenotes : Denotes lexeme token) :
    scan (String.ofList lexeme) = .ok [token, .endOfInput] := by
  have hlongest : IsLongest lexeme (lexeme ++ []) := by
    rw [List.append_nil]
    exact hdenotes.isLexeme.isLongest
  -- the lexeme is the only piece, with empty gaps on both sides
  have hparts := Decomposes.lexeme .nil hlongest (.finished (.closed .nil))
  rw [List.nil_append, List.append_nil] at hparts
  obtain ⟨tokens, heach, hresult⟩ := scan_of_finished hparts
  cases heach with
  | cons hdenotes' hnone =>
    cases hnone
    obtain rfl := hdenotes.unique hdenotes'
    exact hresult

/-- **Scanning follows the grammar.**  A program falls apart into lexemes and gaps in one
way only.  If it does so up to its end, scanning gives the tokens of the lexemes and the
end of input; if a stray character is left over, scanning gives the error at it. -/
theorem scan_by_unique_decomposition (source : String) :
    ∃ pieces ending,
      Decomposes source.toList pieces ending ∧
      (∀ pieces' ending', Decomposes source.toList pieces' ending' →
        pieces' = pieces ∧ ending' = ending) ∧
      source.toList = pieces.flatMap Piece.text ++ ending.text ∧
      match ending with
      | .finished _ =>
        ∃ tokens, List.Forall₂ Denotes (pieces.map Piece.lexeme) tokens ∧
          (∀ tokens', List.Forall₂ Denotes (pieces.map Piece.lexeme) tokens' → tokens' = tokens) ∧
          scan source = .ok (tokens ++ [.endOfInput])
      | .stray gap c _ =>
        let place := Location.start.advance (pieces.flatMap Piece.text ++ gap)
        scan source = .error ⟨c, .upTo place (place.offset + c.utf8Size)⟩ := by
  obtain ⟨pieces, ending, hparts⟩ := exists_decomposes source.toList
  refine ⟨pieces, ending, hparts, fun _ _ hother => hother.unique hparts, hparts.text_eq, ?_⟩
  -- the ending decides whether the scan succeeds
  cases ending with
  | finished gap =>
    obtain ⟨tokens, heach, hresult⟩ := scan_of_finished hparts
    rw [String.ofList_toList] at hresult
    refine ⟨tokens, heach, ?_, hresult⟩
    intro tokens' heach'
    -- lexemes denote one token each
    exact List.right_unique_forall₂' (fun _ _ _ hleft hright => hleft.unique hright) heach' heach
  | stray gap c rest =>
    have hresult := scan_of_stray hparts
    rwa [String.ofList_toList] at hresult

end Programs

end MiniPascal.Grammar
