import MiniPascal.Proofs.Diagnostic.Pointing
import MiniPascal.Proofs.Dump.Writers
import MiniPascal.Proofs.Grammar.LineEnds

/-!
# Programs in Either Style of Line Ends

A user cannot tell whether the lines of a program end with a line feed alone or with a
carriage return before it.  Two scanners that read the same text in the two styles find the
same tokens on the same lines and columns, and fail at the same character (§2).  Dumps and
diagnostics name lines and columns only, so what is written is the same (§3, §4).

- `WithReturns.nextToken`, `WithReturns.readAll`: one token, and all of them;
- `readProgram_addReturns`: programs, their dumps and their diagnostics.
-/

namespace MiniPascal

open Grammar

/-! ## §1 Places in the other style -/

/-- The same span when each line above ends with one byte more. -/
def Span.withReturns (span : Span) : Span :=
  ⟨span.start + (span.line - 1), span.stop + (span.line - 1), span.line, span.column⟩

/-- The same token in the other style. -/
def PlacedToken.withReturns (placed : PlacedToken) : PlacedToken :=
  { placed with span := placed.span.withReturns }

/-- The same error in the other style. -/
def LexicalError.withReturns (error : LexicalError) : LexicalError :=
  { error with span := error.span.withReturns }

/-- A span that stays on one line moves as a whole. -/
theorem Span.upTo_withReturns {first last : Location} (hsingle : last.line = first.line) :
    Span.upTo first.withReturns last.withReturns.offset
      = (Span.upTo first last.offset).withReturns := by
  unfold Span.upTo Location.withReturns Span.withReturns
  rw [hsingle]

namespace Scanner

/-! ## §2 Two scanners -/

/-- `other` stands where `scanner` does, and reads the same text with carriage returns. -/
structure WithReturns (scanner other : Scanner) : Prop where
  rest : other.cursor.rest = addReturns scanner.cursor.rest
  location : other.cursor.location = scanner.cursor.location.withReturns
  /-- Lines are counted from one. -/
  counted : 1 ≤ scanner.cursor.location.line

variable {scanner other : Scanner}

/-- Behind a gap and a lexeme the scanners still stand at the same place, and the span of the
token is the same. -/
theorem WithReturns.behind (hsame : scanner.WithReturns other) (gap : List Char)
    {lexeme : List Char} (hsingle : '\n' ∉ lexeme) (rest : List Char) :
    (scanner.behind gap lexeme rest).WithReturns
        (other.behind (addReturns gap) lexeme (addReturns rest)) ∧
      (other.behind (addReturns gap) lexeme (addReturns rest)).tokenSpan
        = (scanner.behind gap lexeme rest).tokenSpan.withReturns := by
  -- the gap may have line ends in it, the lexeme has none
  have hstart := Location.advance_addReturns hsame.counted gap
  have hstop := Location.advance_addReturns hsame.counted (gap ++ lexeme)
  rw [addReturns_append, addReturns_of_not_mem hsingle] at hstop
  rw [← hsame.location] at hstart hstop
  constructor
  · exact ⟨rfl, hstop, Nat.le_trans hsame.counted (Location.line_le_advance _ _)⟩
  · show Span.upTo (other.cursor.location.advance _) (other.cursor.location.advance _).offset = _
    rw [hstart, hstop]
    apply Span.upTo_withReturns
    rw [Location.advance_append]
    exact Location.line_advance_of_not_mem hsingle _

/-- **One token.**  The same is found in either style, but for the offsets. -/
theorem WithReturns.nextToken (hsame : scanner.WithReturns other) :
    other.nextToken.result = scanner.nextToken.result.mapError LexicalError.withReturns ∧
      scanner.nextToken.scanner.WithReturns other.nextToken.scanner ∧
      other.nextToken.scanner.tokenSpan = scanner.nextToken.scanner.tokenSpan.withReturns := by
  have hfinds := finds_nextToken scanner
  generalize scanner.nextToken.result = result, scanner.nextToken.scanner = after at hfinds ⊢
  cases hfinds with
  | endOfInput hlast =>
    have hlast' : IsLastGap other.cursor.rest := hsame.rest ▸ hlast.addReturns
    obtain ⟨hresult, hafter⟩ := nextToken_of_lastGap hlast'
    have hmoved := hsame.behind scanner.cursor.rest List.not_mem_nil []
    have hthere : other.nextToken.scanner = other.behind other.cursor.rest [] [] := by
      rw [hafter, Scanner.behind, List.append_nil]
    rw [← hsame.rest, addReturns_nil, ← hthere] at hmoved
    exact ⟨hresult, hmoved⟩
  | @token gap lexeme rest token hbefore hlongest hwhole hdenotes =>
    -- no lexeme has a line end in it, so the lexeme is the same
    have hwhole' : other.cursor.rest = addReturns gap ++ (lexeme ++ addReturns rest) := by
      rw [hsame.rest, hwhole, addReturns_append, addReturns_append, hdenotes.isLexeme.addReturns_eq]
    obtain ⟨token', hdenotes', hresult, hafter⟩ :=
      nextToken_of_lexeme hbefore.addReturns hlongest.addReturns hwhole'
    obtain rfl := hdenotes.unique hdenotes'
    have hmoved := hsame.behind gap hdenotes.isLexeme.lineFeed_not_mem rest
    have hthere : other.nextToken.scanner
        = other.behind (addReturns gap) lexeme (addReturns rest) := hafter
    rw [← hthere] at hmoved
    exact ⟨hresult, hmoved⟩
  | @stray gap rest c hbefore hstray hwhole =>
    have hwhole' : other.cursor.rest = addReturns gap ++ c :: addReturns rest := by
      rw [hsame.rest, hwhole, addReturns_append, addReturns_cons hstray.ne_lineFeed]
    obtain ⟨hresult, hafter⟩ := nextToken_of_stray hbefore.addReturns hstray hwhole'
    have hmoved := hsame.behind gap List.not_mem_nil (c :: rest)
    have hthere : other.nextToken.scanner
        = other.behind (addReturns gap) [] (c :: addReturns rest) := by
      rw [hafter, Scanner.behind, List.append_nil]
    rw [addReturns_cons hstray.ne_lineFeed, ← hthere] at hmoved
    refine ⟨?_, hmoved⟩
    -- the error is where the gap ends, and takes the bytes of one character
    rw [hresult, hsame.location, Location.advance_addReturns hsame.counted]
    simp only [Except.mapError, LexicalError.withReturns, Span.withReturns, Span.upTo,
      Location.withReturns, Nat.add_right_comm]

/-- **A whole reading.**  The tokens and the error are the same, but for the offsets. -/
theorem WithReturns.readAll (hsame : scanner.WithReturns other) :
    other.readAll.tokens = scanner.readAll.tokens.map PlacedToken.withReturns ∧
      other.readAll.error? = scanner.readAll.error?.map LexicalError.withReturns := by
  induction scanner using reading_induction generalizing other with
  | ended scanner hresult =>
    obtain ⟨hfound, -, hspan⟩ := hsame.nextToken
    rw [hresult] at hfound
    rw [readAll_of_endOfInput hresult, readAll_of_endOfInput hfound, hspan]
    exact ⟨rfl, rfl⟩
  | failed scanner error hresult =>
    obtain ⟨hfound, -, -⟩ := hsame.nextToken
    rw [hresult] at hfound
    rw [readAll_of_error hresult, readAll_of_error hfound]
    exact ⟨rfl, rfl⟩
  | found scanner token hresult hinside ih =>
    obtain ⟨hfound, hbehind, hspan⟩ := hsame.nextToken
    rw [hresult] at hfound
    obtain ⟨htokens, herror⟩ := ih hbehind
    rw [readAll_of_token hresult hinside, readAll_of_token hfound hinside, htokens, hspan]
    exact ⟨rfl, herror⟩

theorem withReturns_start (text : List Char) :
    (start text).WithReturns (start (addReturns text)) :=
  ⟨rfl, rfl, Nat.le_refl _⟩

/-! ## §3 Dumps -/

/-- **Dumps are the same**, as they name lines and columns only. -/
theorem WithReturns.write (hsame : scanner.WithReturns other) (format : DumpFormat)
    (positions : Bool) :
    (TokenDump.write format positions other).output
      = (TokenDump.write format positions scanner).output := by
  obtain ⟨htokens, herror⟩ := hsame.readAll
  -- a line of a dump, and a record of one, depend on the span by its line and column only
  cases format with
  | text =>
    have hline (placed : PlacedToken) : TokenDump.placedLine positions placed.withReturns
        = TokenDump.placedLine positions placed := by
      cases positions <;> rfl
    simp only [TokenDump.write, TokenDump.text_eq, htokens, List.map_map, Function.comp_def, hline]
  | json =>
    have hrecord (placed : PlacedToken) : TokenDump.record positions placed.withReturns
        = TokenDump.record positions placed := by
      cases positions <;> rfl
    simp only [TokenDump.write]
    cases hfailed : scanner.readAll.error? with
    | none =>
      rw [hfailed] at herror
      rw [TokenDump.output_json_of_none hfailed, TokenDump.output_json_of_none herror, htokens,
        List.map_map]
      simp only [Function.comp_def, hrecord]
    | some found =>
      rw [hfailed] at herror
      rw [TokenDump.output_json_of_some hfailed, TokenDump.output_json_of_some herror]

end Scanner

/-! ## §4 Diagnostics -/

/-- The line of a visible character is cut out of both texts, and the excerpts are equal. -/
theorem cut_addReturns {c : Char} (hnotFeed : c ≠ '\n') (hnotReturn : c ≠ '\r')
    {before rest : List Char} (hplain : '\r' ∉ before ++ c :: rest) :
    let span := Span.upTo (Location.start.advance before) (byteLength (before ++ [c]))
    Excerpt.cut (addReturns (before ++ c :: rest)) span.withReturns
      = Excerpt.cut (before ++ c :: rest) span := by
  intro span
  obtain ⟨raw, -, hfound, -, hcut⟩ := exists_cut_of_visible hnotFeed hnotReturn before rest
  obtain ⟨raw', -, hfound', -, hcut'⟩ :=
    exists_cut_of_visible hnotFeed hnotReturn (addReturns before) (addReturns rest)
  -- the span of the character in the other style
  have hcounted : 1 ≤ Location.start.line := Nat.le_refl 1
  have hplace := Location.advance_addReturns hcounted before
  have hmoved : Span.upTo (Location.start.advance (addReturns before))
      (byteLength (addReturns before ++ [c])) = span.withReturns := by
    have hstart : (Location.start.advance (addReturns before))
        = (Location.start.advance before).withReturns := hplace
    have hbytes := congrArg Location.offset hstart
    rw [offset_advance_start] at hbytes
    have hoffset := offset_advance_start before
    rw [hstart, byteLength_append, hbytes]
    simp only [span, Span.withReturns, Span.upTo, Location.withReturns, byteLength_append, hoffset,
      Nat.add_right_comm]
  rw [hmoved] at hfound' hcut'
  -- and its line there
  have hline : dropReturn raw' = dropReturn raw := by
    have hlines := congrArg (·[span.line - 1]?) (map_dropReturn_splitLines hplain)
    rw [addReturns_append, addReturns_cons hnotFeed] at hlines
    simp only [List.getElem?_map] at hlines
    have hline' :
        (splitLines (addReturns before ++ c :: addReturns rest))[span.line - 1]? = some raw' :=
      hfound'
    rw [hline', hfound] at hlines
    exact Option.some.inj hlines
  rw [addReturns_append, addReturns_cons hnotFeed, hcut', hcut, hline]
  rfl

/-- A diagnostic shows lines and columns, and the excerpt. -/
theorem text_diagnostic_addReturns {error : LexicalError} {text : List Char}
    (hcut : Excerpt.cut (addReturns text) error.span.withReturns = Excerpt.cut text error.span)
    (hcounted : 1 ≤ error.span.line) (inColour : Bool) :
    (error.withReturns.diagnostic (addReturns text)).text inColour
      = (error.diagnostic text).text inColour := by
  have hmoved : error.withReturns.diagnostic (addReturns text)
      = { error.diagnostic text with span := error.span.withReturns } := by
    unfold LexicalError.diagnostic
    rw [show error.withReturns.span = error.span.withReturns from rfl, hcut]
    cases Excerpt.cut text error.span <;> rfl
  have hhere : (error.diagnostic text).span = error.span := by
    unfold LexicalError.diagnostic
    cases Excerpt.cut text error.span <;> rfl
  -- no line is zero, so the place is shown in both styles
  have hshown : error.span ≠ .nowhere := by
    intro hsame
    rw [hsame] at hcounted
    cases hcounted
  have hshown' : error.span.withReturns ≠ .nowhere := by
    intro hsame
    have hline : error.span.withReturns.line = 0 := by rw [hsame]; rfl
    exact absurd (hline ▸ hcounted) (by decide)
  rw [hmoved]
  unfold Diagnostic.text
  simp only [hhere, hshown, hshown', if_false]
  rfl

/-! ## §5 Whole programs -/

/-- Tokens keep their kinds and values, and an error its character. -/
theorem outcome_withReturns {reading other : Reading}
    (htokens : other.tokens = reading.tokens.map PlacedToken.withReturns)
    (hfailure : other.error? = reading.error?.map LexicalError.withReturns) :
    other.outcome = reading.outcome.mapError LexicalError.withReturns := by
  -- the tokens lose their spans in an outcome
  have hkept : PlacedToken.token ∘ PlacedToken.withReturns = PlacedToken.token := rfl
  unfold Reading.outcome
  rw [htokens, hfailure, List.map_map, hkept]
  cases reading.error? <;> rfl

/-- A program with a carriage return before each line feed. -/
def withCarriageReturns (source : String) : String :=
  String.ofList (addReturns source.toList)

theorem toList_withCarriageReturns (source : String) :
    (withCarriageReturns source).toList = addReturns source.toList :=
  String.toList_ofList

/-- **The style of line ends cannot be seen.**  A program without carriage returns is read into
the same tokens as with one before each line feed, on the same lines and columns, and each
offset is further on by one byte for every line above.  Both dumps are the same.  If one of the
programs fails, so does the other, with the same character at the same place, and what the
user is told is the same. -/
theorem readProgram_addReturns {source : String} (hplain : '\r' ∉ source.toList) :
    (readProgram (withCarriageReturns source)).tokens
        = (readProgram source).tokens.map PlacedToken.withReturns ∧
      (∀ format positions,
        (TokenDump.write format positions (.start (withCarriageReturns source).toList)).output
          = (TokenDump.write format positions (.start source.toList)).output) ∧
      scan (withCarriageReturns source) = (scan source).mapError LexicalError.withReturns ∧
      ∀ error, scan source = .error error → ∀ inColour,
        (error.withReturns.diagnostic (withCarriageReturns source).toList).text inColour
          = (error.diagnostic source.toList).text inColour := by
  have hsame : (Scanner.start source.toList).WithReturns
      (.start (withCarriageReturns source).toList) := by
    rw [toList_withCarriageReturns]
    exact Scanner.withReturns_start source.toList
  obtain ⟨htokens, hfailure⟩ := hsame.readAll
  refine ⟨htokens, hsame.write, ?_, ?_⟩
  · exact outcome_withReturns htokens hfailure
  · intro error hfailed
    obtain ⟨before, rest, hwhole, hvisible, hplace⟩ := exists_of_scan_error hfailed
    -- line ends are blank, so the character is none
    have hnotFeed : error.character ≠ '\n' := by
      intro hfeed
      rw [hfeed] at hvisible
      cases hvisible
    have hnotReturn : error.character ≠ '\r' := by
      intro hfeed
      rw [hfeed] at hvisible
      cases hvisible
    rw [hwhole] at hplain
    have hcut := cut_addReturns hnotFeed hnotReturn hplain
    rw [← hplace, ← hwhole] at hcut
    rw [toList_withCarriageReturns]
    apply text_diagnostic_addReturns hcut
    rw [hplace]
    exact Location.line_le_advance .start before

/-- Line ends inside a comment and between tokens, and an error on the last line. -/
theorem readProgram_addReturns_comment :
    '\r' ∉ "x \x7bé\n\x7d\n :=\n  ?\n".toList ∧
      withCarriageReturns "x \x7bé\n\x7d\n :=\n  ?\n" = "x \x7bé\r\n\x7d\r\n :=\r\n  ?\r\n" ∧
      scan "x \x7bé\n\x7d\n :=\n  ?\n" = .error ⟨'?', ⟨14, 15, 4, 3⟩⟩ ∧
      scan (withCarriageReturns "x \x7bé\n\x7d\n :=\n  ?\n") = .error ⟨'?', ⟨17, 18, 4, 3⟩⟩ := by
  have hplain : '\r' ∉ "x \x7bé\n\x7d\n :=\n  ?\n".toList := by decide
  have hfailure : scan "x \x7bé\n\x7d\n :=\n  ?\n" = .error ⟨'?', ⟨14, 15, 4, 3⟩⟩ := by
    decide +kernel
  obtain ⟨-, -, hfailed, -⟩ := readProgram_addReturns hplain
  rw [hfailure] at hfailed
  exact ⟨hplain, by decide, hfailure, hfailed⟩

end MiniPascal
