import MiniPascal.Proofs.Grammar.Reading
import MiniPascal.Proofs.Scan.Operation

/-!
# What the Next Token Can Be

A call for the next token ends in one of three ways: at the end of the text, behind a
lexeme, or at a stray character.  `Finds` lists them with the scanner that each leaves,
and `finds_nextToken` says that there are no others.

Whatever reads a text to its end makes one such call after the other.  The induction
over these calls is stated here once, as `reading_induction`.
-/

namespace MiniPascal

open Grammar

namespace Scanner

/-! ## §1 The three ways on -/

/-- The scanner that has passed `gap` and then `lexeme`, with `rest` still to read.  Its
token begins between the two. -/
def behind (scanner : Scanner) (gap lexeme rest : List Char) : Scanner :=
  ⟨⟨scanner.cursor.source, rest, scanner.cursor.location.advance (gap ++ lexeme)⟩,
    scanner.cursor.location.advance gap, scanner.finished⟩

/-- **What is found** when a scanner is asked for the next token, and the scanner
afterwards. -/
inductive Finds (scanner : Scanner) : Except LexicalError Token → Scanner → Prop where
  /-- Nothing but separators is left. -/
  | endOfInput (hlast : IsLastGap scanner.cursor.rest) :
      Finds scanner (.ok .endOfInput) (scanner.behind scanner.cursor.rest [] [])
  /-- The longest lexeme behind a gap is passed, and gives its token. -/
  | token {gap lexeme rest : List Char} {token : Token} (hbefore : IsGap gap)
      (hlongest : IsLongest lexeme (lexeme ++ rest))
      (hwhole : scanner.cursor.rest = gap ++ (lexeme ++ rest)) (hdenotes : Denotes lexeme token) :
      Finds scanner (.ok token) (scanner.behind gap lexeme rest)
  /-- A stray character stands behind a gap, and is not passed. -/
  | stray {gap rest : List Char} {c : Char} (hbefore : IsGap gap) (hstray : IsStray c)
      (hwhole : scanner.cursor.rest = gap ++ c :: rest) :
      Finds scanner
        (.error ⟨c, .upTo (scanner.cursor.location.advance gap)
          ((scanner.cursor.location.advance gap).offset + c.utf8Size)⟩)
        (scanner.behind gap [] (c :: rest))

variable {scanner later : Scanner} {source marked token : List Char}

/-- **There is no other way on.**  How the rest of the text falls apart decides. -/
theorem finds_nextToken (scanner : Scanner) :
    Finds scanner scanner.nextToken.result scanner.nextToken.scanner := by
  obtain ⟨pieces, ending, hparts⟩ := exists_decomposes scanner.cursor.rest
  generalize hwhole : scanner.cursor.rest = text at hparts
  cases hparts with
  -- each way that the text can go on is one of the three, with the scanner left there
  | finished hlast =>
    subst hwhole
    obtain ⟨hresult, hafter⟩ := nextToken_of_lastGap hlast
    have hfound := Finds.endOfInput hlast
    rwa [behind, List.append_nil, ← hresult, ← hafter] at hfound
  | stray hbefore hstray =>
    obtain ⟨hresult, hafter⟩ := nextToken_of_stray hbefore hstray hwhole
    have hfound := Finds.stray hbefore hstray hwhole
    rwa [behind, List.append_nil, ← hresult, ← hafter] at hfound
  | lexeme hbefore hlongest =>
    obtain ⟨token, hdenotes, hresult, hafter⟩ := nextToken_of_lexeme hbefore hlongest hwhole
    have hfound := Finds.token hbefore hlongest hwhole hdenotes
    rwa [behind, ← hresult, ← hafter] at hfound

/-- A result that is known tells which way it was found. -/
theorem exists_finds {result : Except LexicalError Token}
    (hfound : scanner.nextToken.result = result) :
    ∃ after, scanner.nextToken.scanner = after ∧ Finds scanner result after :=
  ⟨_, rfl, hfound ▸ finds_nextToken scanner⟩

/-- The end of input is found where nothing but separators is left. -/
theorem isLastGap_of_nextToken (hended : scanner.nextToken.result = .ok .endOfInput) :
    IsLastGap scanner.cursor.rest := by
  obtain ⟨_, -, hfinds⟩ := exists_finds hended
  cases hfinds with
  | endOfInput hlast => exact hlast
  | token _ _ _ hdenotes => exact absurd rfl hdenotes.kind_ne_endOfInput

/-- A call ends a reading, with the end of input or with an error, or gives a token of the
text. -/
theorem nextToken_cases (scanner : Scanner) :
    scanner.nextToken.result = .ok .endOfInput ∨
      (∃ error, scanner.nextToken.result = .error error) ∨
      ∃ token, scanner.nextToken.result = .ok token ∧ token.kind ≠ .endOfInput := by
  have hfinds := finds_nextToken scanner
  generalize scanner.nextToken.result = result, scanner.nextToken.scanner = after at hfinds ⊢
  cases hfinds with
  | endOfInput => exact .inl rfl
  | token _ _ _ hdenotes => exact .inr (.inr ⟨_, rfl, hdenotes.kind_ne_endOfInput⟩)
  | stray => exact .inr (.inl ⟨_, rfl⟩)

theorem finished_nextToken (scanner : Scanner) :
    scanner.nextToken.scanner.finished = scanner.finished := by
  have hfinds := finds_nextToken scanner
  generalize scanner.nextToken.result = result, scanner.nextToken.scanner = after at hfinds ⊢
  cases hfinds <;> rfl

/-! ## §2 Where the scanner stands then -/

/-- Behind a gap and a lexeme the lexeme is the token. -/
theorem Stands.behind {gap lexeme rest : List Char} (hstands : Stands source marked token scanner)
    (hwhole : scanner.cursor.rest = gap ++ (lexeme ++ rest)) :
    Stands source (marked ++ token ++ gap) lexeme (scanner.behind gap lexeme rest) := by
  constructor
  · exact hstands.source_eq
  · rw [hstands.whole, hwhole]
    simp [Scanner.behind]
  · show scanner.cursor.location.advance gap = _
    rw [hstands.location, ← Location.advance_append]
  · show scanner.cursor.location.advance (gap ++ lexeme) = _
    rw [hstands.location, ← Location.advance_append]
    simp

/-- The span of the token holds what was passed since the token began. -/
theorem Stands.slice (hstands : Stands source marked token scanner) :
    sliceBytes? scanner.tokenSpan.start scanner.tokenSpan.stop source = some token := by
  have hstop : scanner.tokenSpan.stop = byteLength (marked ++ token) := hstands.position_eq
  rw [hstands.tokenSpan_start, hstop, hstands.whole, List.append_assoc]
  exact sliceBytes?_middle marked token scanner.cursor.rest

/-- A scanner with nothing left to read stands at the last byte. -/
theorem Stands.position_of_end (hstands : Stands source marked token scanner)
    (hended : scanner.cursor.rest = []) : scanner.position = byteLength source := by
  rw [hstands.position_eq, hstands.whole, hended, List.append_nil]

/-! ## §3 One call after the other -/

/-- **Induction along a reading.**  What holds where a text ends or has an error, and holds
before each other token if it holds behind it, holds of every scanner. -/
theorem reading_induction {motive : Scanner → Prop}
    (ended : ∀ scanner : Scanner, scanner.nextToken.result = .ok .endOfInput → motive scanner)
    (failed : ∀ (scanner : Scanner) (error : LexicalError),
      scanner.nextToken.result = .error error → motive scanner)
    (found : ∀ (scanner : Scanner) (token : Token), scanner.nextToken.result = .ok token →
      token.kind ≠ .endOfInput → motive scanner.nextToken.scanner → motive scanner)
    (scanner : Scanner) : motive scanner := by
  rcases nextToken_cases scanner with hresult | ⟨error, hresult⟩ | ⟨token, hresult, hinside⟩
  · exact ended scanner hresult
  · exact failed scanner error hresult
  · -- a token is passed, and less is left behind it
    have hshorter := remaining_nextToken_lt hresult hinside
    have hbehind : motive scanner.nextToken.scanner := reading_induction ended failed found _
    exact found scanner token hresult hinside hbehind
termination_by scanner.remaining

/-- Reading to the end is calling for the next token a number of times. -/
theorem exists_run_readAll (scanner : Scanner) :
    ∃ n, scanner.readAll.scanner = scanner.run (List.replicate n .nextToken) := by
  induction scanner using reading_induction with
  | ended scanner hresult => exact ⟨1, by rw [readAll_of_endOfInput hresult]; rfl⟩
  | failed scanner error hresult => exact ⟨1, by rw [readAll_of_error hresult]; rfl⟩
  | found scanner token hresult hinside ih =>
    obtain ⟨n, hsame⟩ := ih
    exact ⟨n + 1, by rw [readAll_of_token hresult hinside]; exact hsame⟩

/-- **Where a reading ends.**  Nothing is left to read, or the character of the error stands
there, with the span of the error on it. -/
theorem readAll_scanner (scanner : Scanner) :
    match scanner.readAll.error? with
    | none => scanner.readAll.scanner.cursor.rest = []
    | some error =>
        scanner.readAll.scanner.cursor.current? = some error.character ∧
          scanner.readAll.scanner.position = error.span.start := by
  induction scanner using reading_induction with
  | ended scanner hresult =>
    obtain ⟨-, hafter⟩ := nextToken_of_lastGap (isLastGap_of_nextToken hresult)
    rw [readAll_of_endOfInput hresult, hafter]
  | failed scanner error hresult =>
    obtain ⟨after, hsame, hfinds⟩ := exists_finds hresult
    rw [readAll_of_error hresult, hsame]
    cases hfinds with
    -- the scanner stops in front of the character, behind the gap
    | @stray gap =>
      refine ⟨rfl, ?_⟩
      show (scanner.cursor.location.advance (gap ++ [])).offset = _
      rw [List.append_nil]
      rfl
  | found scanner token hresult hinside ih =>
    rw [readAll_of_token hresult hinside]
    exact ih

end Scanner

/-! ## §4 What comes of a reading -/

namespace Reading

variable {reading : Reading}

theorem of_outcome_ok {tokens : List Token} (hsuccess : reading.outcome = .ok tokens) :
    reading.error? = none ∧ reading.tokens.map PlacedToken.token = tokens := by
  unfold outcome at hsuccess
  split at hsuccess
  · cases hsuccess
  · rename_i hnone
    exact ⟨hnone, Except.ok.inj hsuccess⟩

theorem of_outcome_error {error : LexicalError} (hfailure : reading.outcome = .error error) :
    reading.error? = some error := by
  unfold outcome at hfailure
  split at hfailure
  · rename_i hfound
    rw [hfound, Except.error.inj hfailure]
  · cases hfailure

theorem outcome_eq_error_iff {error : LexicalError} :
    reading.outcome = .error error ↔ reading.error? = some error := by
  refine ⟨of_outcome_error, ?_⟩
  intro hsome
  rw [outcome, hsome]

end Reading

/-- **Where the reading of a program ends**: at the last byte, or on the character of the
error. -/
theorem readProgram_scanner (source : String) :
    match (readProgram source).error? with
    | none => (readProgram source).scanner.position = byteLength source.toList
    | some error =>
        (readProgram source).scanner.cursor.current? = some error.character ∧
          (readProgram source).scanner.position = error.span.start := by
  have hthere := Scanner.readAll_scanner (.start source.toList)
  change match (readProgram source).error? with | none => _ | some error => _ at hthere
  cases hended : (readProgram source).error? with
  | some error =>
    rw [hended] at hthere
    exact hthere
  | none =>
    rw [hended] at hthere
    -- a reading is a run, and every run stands somewhere in the text
    obtain ⟨n, hrun⟩ := Scanner.exists_run_readAll (.start source.toList)
    obtain ⟨marked, token, hstands⟩ :=
      Scanner.exists_stands_run source.toList (List.replicate n .nextToken)
    rw [← hrun] at hstands
    exact hstands.position_of_end hthere

end MiniPascal
