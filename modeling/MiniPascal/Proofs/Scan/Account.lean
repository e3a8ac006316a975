import MiniPascal.Proofs.Grammar.Lookahead
import MiniPascal.Proofs.Numeral.Overflow
import MiniPascal.Proofs.Scan.Step

/-!
# The Log Accounts for the Tokens

A scan reports three things: the tokens it finds, the literals among them that are too
large, and a comment left open at the end.  Each is reported from another depth of the
scan.  Here is what all reports together say of a program, in the order of the log:

- `saturated_iff_of_first?`: a literal is reported as too large if its exact value is;
- `openComments_gap`: a gap reports nothing, and an open comment reports where its body begins;
- `log_readProgram`: one group of records for each token, and one record more if the program
  ends inside a comment.
-/

namespace MiniPascal

/-! ## §1 Literals that are too large -/

namespace Grammar

/-- The number that a literal is written for, whatever its size: its digits, divided by ten
for each digit behind the point. -/
def exactValue (literal : List Char) : ℚ :=
  digitsValue (literal.filter Char.isDigit)
    / 10 ^ ((literal.dropWhile Char.isDigit).filter Char.isDigit).length

/-- **The exact value is out of range**: greater than the largest whole number, or so great
that the nearest number of the format is infinite. -/
def IsTooLarge (kind : TokenKind) (literal : List Char) : Prop :=
  match kind with
  | .integerLiteral => (2 ^ 63 - 1 : ℚ) < exactValue literal
  | .realLiteral => Binary64.overflowLimit ≤ exactValue literal
  | _ => False

section Literals

variable {digits whole fraction : List Char}

theorem exactValue_integer (hall : ∀ c ∈ digits, c.isDigit = true) :
    exactValue digits = digitsValue digits := by
  have hrun := List.filter_eq_self.mpr hall
  have hafter := List.dropWhile_eq_nil_iff.mpr hall
  simp [exactValue, hrun, hafter]

theorem exactValue_real (hleft : ∀ c ∈ whole, c.isDigit = true)
    (hright : ∀ c ∈ fraction, c.isDigit = true) :
    exactValue (whole ++ '.' :: fraction)
      = (digitsValue (whole ++ fraction) : ℚ) / (Nat.pow 10 fraction.length : Nat) := by
  -- the point ends the digits before it, and is left out of those that are counted
  have hpoint : ∀ c ∈ ('.' :: fraction).head?, c.isDigit = false := by simp
  have hafter := dropWhile_run hleft hpoint
  have hother : Char.isDigit '.' = false := rfl
  rw [exactValue, hafter, List.filter_append, List.filter_cons_of_neg (by simp),
    List.filter_eq_self.mpr hleft, List.filter_eq_self.mpr hright]
  simp

theorem saturated_integer (hinside : digits ≠ []) (hall : ∀ c ∈ digits, c.isDigit = true) :
    (Lexeme.integer digits).saturated = true ↔ IsTooLarge .integerLiteral digits := by
  -- the limit is one number, as a rational one and as the greatest that a token carries
  have hmost : (2 ^ 63 - 1 : ℚ) = (Token.largestInteger : Nat) := by norm_num [Token.largestInteger]
  show _ ↔ (2 ^ 63 - 1 : ℚ) < _
  rw [exactValue_integer hall, hmost, Nat.cast_lt, Lexeme.integer]
  split
  · rename_i hfits
    simpa using hfits.2
  · rename_i hlarge
    simpa [hinside] using hlarge

theorem saturated_real (hleft : ∀ c ∈ whole, c.isDigit = true)
    (hright : ∀ c ∈ fraction, c.isDigit = true) :
    (Lexeme.real whole fraction).saturated = true
      ↔ IsTooLarge .realLiteral (whole ++ '.' :: fraction) := by
  have hpowers : 0 < Nat.pow 10 fraction.length := Nat.pow_pos (Nat.succ_pos 9)
  have hlimit := Binary64.ofQuotient?_eq_none_iff hpowers (digitsValue (whole ++ fraction))
  show _ ↔ Binary64.overflowLimit ≤ _
  rw [exactValue_real hleft hright]
  -- rounding fails just where the exact number is out of range
  refine Iff.trans ?_ hlimit
  unfold Lexeme.real
  dsimp only
  split <;> rename_i hfound <;> rw [Nat.pow_eq] at hfound <;> simp [hfound]

theorem IsTooLarge.kind {kind : TokenKind} {literal : List Char}
    (hlarge : IsTooLarge kind literal) :
    kind = .integerLiteral ∨ kind = .realLiteral := by
  unfold IsTooLarge at hlarge
  split at hlarge
  · exact .inl rfl
  · exact .inr rfl
  · exact hlarge.elim

/-- Only a text that begins with a digit can be too large. -/
theorem Denotes.isDigit_of_isTooLarge {lexeme : List Char} {token : Token}
    (hdenotes : Denotes lexeme token) (hlarge : IsTooLarge token.kind lexeme) :
    ∃ c ∈ lexeme.head?, c.isDigit = true := by
  cases hdenotes with
  | integer hinside hall =>
    obtain ⟨c, more, rfl⟩ := List.exists_cons_of_ne_nil hinside
    exact ⟨c, rfl, hall c List.mem_cons_self⟩
  | real hinside hleft hright =>
    obtain ⟨c, more, rfl⟩ := List.exists_cons_of_ne_nil hinside
    exact ⟨c, rfl, hleft c List.mem_cons_self⟩
  -- the kinds of all other lexemes are no literals
  | @reserved _ kind _ hknown =>
    obtain rfl | rfl : kind = .integerLiteral ∨ kind = .realLiteral := hlarge.kind
    · cases hknown
    · cases hknown
  | name => cases hlarge
  | assign => cases hlarge
  | @mark _ kind _ hsame =>
    obtain rfl | rfl : kind = .integerLiteral ∨ kind = .realLiteral := hlarge.kind
    · cases hsame
    · cases hsame

/-- Only numbers are taken for too large. -/
theorem saturated_of_not_isDigit {c : Char} {more : List Char} {lexeme : Lexeme}
    (hnoDigit : ¬ c.isDigit = true) (hfound : Lexeme.first? (c :: more) = some lexeme) :
    lexeme.saturated = false := by
  simp only [Lexeme.first?, if_neg hnoDigit] at hfound
  -- a word, a colon with or without an equals sign, or another mark
  split at hfound
  · obtain rfl := Option.some.inj hfound
    rfl
  · split at hfound
    · obtain rfl := Option.some.inj hfound
      unfold Lexeme.colon
      split <;> rfl
    · obtain ⟨kind, -, rfl⟩ := Option.map_eq_some_iff.mp hfound
      rfl

/-- **A literal is taken for too large** where its exact value is, and nothing else is. -/
theorem saturated_iff_of_first? {text : List Char} {lexeme : Lexeme}
    (hfound : Lexeme.first? text = some lexeme) :
    lexeme.saturated = true ↔ IsTooLarge lexeme.token.kind lexeme.text := by
  obtain ⟨hlongest, hdenotes⟩ := first?_sound hfound
  cases text with
  | nil => cases hfound
  | cons c more =>
    by_cases hdigit : c.isDigit = true
    · rw [first?_of_digit hdigit] at hfound
      obtain rfl := Option.some.inj hfound
      have hinside : (c :: more).takeWhile Char.isDigit ≠ [] := by
        simp [List.takeWhile_cons_of_pos hdigit]
      unfold Lexeme.number
      dsimp only
      split
      · rw [text_real, token_real]
        exact saturated_real (fun _ => List.mem_takeWhile_imp) fun _ => List.mem_takeWhile_imp
      · rw [text_integer, token_integer hinside]
        exact saturated_integer hinside fun _ => List.mem_takeWhile_imp
    · -- words and marks are no numbers
      have hfits := saturated_of_not_isDigit hdigit hfound
      refine iff_of_false (by simp [hfits]) ?_
      intro hlarge
      obtain ⟨d, hfirst, hdigit'⟩ := hdenotes.isDigit_of_isTooLarge hlarge
      rw [hlongest.head?_eq] at hfirst
      obtain rfl := Option.some.inj hfirst
      exact hdigit hdigit'

end Literals

end Grammar

open Grammar

/-! ## §2 The records of a program -/

/-- The record of a token: its kind, and where it begins. -/
def tokenRecord (placed : PlacedToken) : LogRecord :=
  ⟨.trace, .tokens, "token",
    [.bare "kind" placed.token.kind.name, .bare "line" (naturalText placed.span.line),
      .bare "column" (naturalText placed.span.column)]⟩

/-- The record of a literal that is too large, as the program has it. -/
def saturationRecord (kind : TokenKind) (literal : List Char) : LogRecord :=
  ⟨.debug, .numbers,
    if kind = .realLiteral then "real literal saturated" else "integer literal saturated",
    [.inQuotes "literal" (String.ofList literal)]⟩

/-- The record of an open comment, with the place of its body. -/
def openCommentRecord (body : Location) : LogRecord :=
  ⟨.debug, .comments, "comment runs to end of input",
    [.bare "line" (naturalText body.line), .bare "column" (naturalText body.column)]⟩

/-- **The records that account for a token.**  If its text in the program is a literal that is
too large, the record that says so comes first; the record of the token is always the last. -/
inductive Accounts (source : List Char) (placed : PlacedToken) : List LogRecord → Prop where
  | inRange {literal : List Char}
      (hslice : sliceBytes? placed.span.start placed.span.stop source = some literal)
      (hfits : ¬ IsTooLarge placed.token.kind literal) :
      Accounts source placed [tokenRecord placed]
  | saturated {literal : List Char}
      (hslice : sliceBytes? placed.span.start placed.span.stop source = some literal)
      (hlarge : IsTooLarge placed.token.kind literal) :
      Accounts source placed [saturationRecord placed.token.kind literal, tokenRecord placed]

/-- **The records at the end of a program**: none, unless the program falls apart up to a
comment that is never closed.  Then there is one, with the place behind the opening brace. -/
inductive AccountsEnding (source : List Char) : List LogRecord → Prop where
  | closed (hclosed : ¬ EndsOpen source) : AccountsEnding source []
  | unclosed {pieces : List Piece} {gap body : List Char}
      (hparts : Decomposes source pieces (.finished (gap ++ '\x7b' :: body))) (hgap : IsGap gap)
      (hunclosed : '\x7d' ∉ body) :
      AccountsEnding source
        [openCommentRecord
          (Location.start.advance (pieces.flatMap Piece.text ++ (gap ++ ['\x7b'])))]

/-! ## §3 The events of one token -/

namespace Scanner

section Step

variable {scanner : Scanner} {gap rest : List Char}

/-- **A gap reports nothing.**  What is reported comes from the separators behind it. -/
theorem openComments_gap (hgap : IsGap gap) (rest : List Char) (here : Location) :
    openComments here (Separator.split (gap ++ rest)).1
      = openComments (here.advance gap) (Separator.split rest).1 := by
  -- one separator at a time, as the gap is put together
  induction hgap generalizing here with
  | nil => rfl
  | @blank c gap hblank _ ih =>
    rw [List.cons_append, split_blank hblank]
    exact ih (here.next c)
  | @comment body gap hclosed _ ih =>
    rw [List.cons_append, List.append_assoc, List.cons_append, split_comment hclosed]
    have hpassed : here.advance ('\x7b' :: (body ++ '\x7d' :: gap))
        = (here.advance (Separator.comment body).spell).advance gap := by
      rw [← Location.advance_append]
      simp [Separator.spell]
    rw [hpassed]
    exact ih (here.advance (Separator.comment body).spell)

theorem openComments_of_not_starts (hgap : IsGap gap)
    (hstops : ∀ c ∈ rest.head?, Separator.starts c = false) (here : Location) :
    openComments here (Separator.split (gap ++ rest)).1 = [] := by
  rw [openComments_gap hgap, split_of_not_starts hstops]
  rfl

/-- An open comment reports the place behind its brace. -/
theorem openComments_unclosed {body : List Char} (hgap : IsGap gap) (hunclosed : '\x7d' ∉ body)
    (here : Location) :
    openComments here (Separator.split (gap ++ '\x7b' :: body)).1
      = [.openComment (here.advance (gap ++ ['\x7b'])).line
          (here.advance (gap ++ ['\x7b'])).column] := by
  rw [openComments_gap hgap, split_unclosed hunclosed, Location.advance_append]
  rfl

/-- At the end only an open comment is reported. -/
theorem events_nextToken_of_lastGap (hlast : IsLastGap scanner.cursor.rest) :
    scanner.nextToken.events
      = openComments scanner.cursor.location (Separator.split scanner.cursor.rest).1 := by
  have hhere := scanner_skipSeparators (List.append_nil _).symm (rest_split_lastGap hlast)
  unfold nextToken
  simp only [hhere]
  rfl

/-- An error is not reported. -/
theorem events_nextToken_of_stray {c : Char} (hbefore : IsGap gap) (hstray : IsStray c)
    (hwhole : scanner.cursor.rest = gap ++ c :: rest) : scanner.nextToken.events = [] := by
  have hsplit : (Separator.split scanner.cursor.rest).2 = c :: rest := by
    rw [hwhole, rest_split_of_not_starts hbefore (hstray.stops rest)]
  have hhere := scanner_skipSeparators hwhole hsplit
  have hnone : Lexeme.first? (c :: rest) = .none := first?_eq_none_iff.mpr hstray.noLexeme
  unfold nextToken
  simp only [hhere, hnone]
  show openComments _ _ = []
  rw [hwhole, openComments_of_not_starts hbefore (hstray.stops rest)]

/-- A token is reported with its place, behind the report of a literal that is too large. -/
theorem events_nextToken_of_lexeme {lexeme : List Char} (hbefore : IsGap gap)
    (hlongest : IsLongest lexeme (lexeme ++ rest))
    (hwhole : scanner.cursor.rest = gap ++ (lexeme ++ rest)) :
    ∃ read, Lexeme.first? (lexeme ++ rest) = some read ∧ read.text = lexeme ∧
      scanner.nextToken.result = .ok read.token ∧
      scanner.nextToken.scanner = scanner.behind gap lexeme rest ∧
      scanner.nextToken.events
        = saturation read ++ [.token read.token.kind (scanner.cursor.location.advance gap).line
            (scanner.cursor.location.advance gap).column] := by
  have hsplit : (Separator.split scanner.cursor.rest).2 = lexeme ++ rest := by
    rw [hwhole, rest_split_of_not_starts hbefore hlongest.stops]
  have hhere := scanner_skipSeparators hwhole hsplit
  -- the token is known from its lexeme, and the report from what is read in its place
  obtain ⟨token, hdenotes, hresult, hafter⟩ := nextToken_of_lexeme hbefore hlongest hwhole
  obtain ⟨read, hfound, htext, hdenotes'⟩ := hlongest.first?
  obtain rfl := hdenotes.unique hdenotes'
  refine ⟨read, hfound, htext, hresult, hafter, ?_⟩
  have hsilent : scanner.skipSeparators.events = [] := by
    show openComments _ _ = []
    rw [hwhole, openComments_of_not_starts hbefore hlongest.stops]
  unfold nextToken
  simp only [hhere, hsilent]
  split
  · rename_i hnone
    exact absurd (List.append_eq_nil_iff.mp hnone).1 hlongest.isLexeme.ne_nil
  · simp only [hfound]
    rfl

end Step

end Scanner

/-! ## §4 The log of a program -/

/-- The records of one token's events. -/
theorem accounts_of_first? {source : List Char} {placed : PlacedToken} {text : List Char}
    {read : Lexeme} (hfound : Lexeme.first? text = some read) (hsame : placed.token = read.token)
    (hslice : sliceBytes? placed.span.start placed.span.stop source = some read.text) :
    Accounts source placed
      ((Scanner.saturation read).map Event.record ++ [tokenRecord placed]) := by
  have hdecided := saturated_iff_of_first? hfound
  unfold Scanner.saturation
  rw [← hsame] at hdecided ⊢
  by_cases hlarge : read.saturated = true
  · have hsaturated := Accounts.saturated hslice (hdecided.mp hlarge)
    rcases (hdecided.mp hlarge).kind with hinteger | hreal
    · simpa [hlarge, hinteger, saturationRecord, Event.record] using hsaturated
    · simpa [hlarge, hreal, saturationRecord, Event.record] using hsaturated
  · have hinRange := Accounts.inRange hslice (mt hdecided.mpr hlarge)
    simpa [hlarge] using hinRange

/-- **The log from a place on.**  Each token that is still found has its records, in order, and
the separators at the end of the text may have one more. -/
theorem Scanner.Stands.log {source marked token rest : List Char} {scanner : Scanner}
    {pieces : List Piece} {ending : Ending} (hparts : Decomposes rest pieces ending)
    (hwhole : scanner.cursor.rest = rest) (hstands : Scanner.Stands source marked token scanner) :
    ∃ groups,
      List.Forall₂ (Accounts source)
        (scanner.readAll.tokens.filter (·.token.kind ≠ .endOfInput)) groups ∧
      scanner.readAll.events.map Event.record
        = groups.flatten
          ++ (Scanner.openComments (scanner.cursor.location.advance (pieces.flatMap Piece.text))
              (Separator.split ending.text).1).map Event.record := by
  -- one token for each piece, and from there on with the scanner that reading it leaves
  induction hparts generalizing scanner marked token with
  | @finished gap hlast =>
    -- no token is found, and only an open comment can be reported
    subst hwhole
    obtain ⟨hresult, -⟩ := nextToken_of_lastGap hlast
    rw [readAll_of_endOfInput hresult]
    exact ⟨[], .nil, congrArg (List.map Event.record) (Scanner.events_nextToken_of_lastGap hlast)⟩
  | @stray gap rest c hbefore hstray =>
    obtain ⟨hresult, -⟩ := nextToken_of_stray hbefore hstray hwhole
    rw [readAll_of_error hresult, Scanner.events_nextToken_of_stray hbefore hstray hwhole]
    refine ⟨[], .nil, ?_⟩
    rw [Ending.text, Scanner.openComments_of_not_starts hbefore (hstray.stops rest)]
    rfl
  | @lexeme gap lexeme rest pieces ending hbefore hlongest _ ih =>
    obtain ⟨read, hfound, htext, hresult, hafter, hevents⟩ :=
      Scanner.events_nextToken_of_lexeme hbefore hlongest hwhole
    have hdenotes := (first?_sound hfound).2
    have hbehind := hstands.behind hwhole
    rw [← hafter] at hbehind
    obtain ⟨groups, haccounts, hmore⟩ := ih (by rw [hafter]; rfl) hbehind
    -- behind the token its text can be cut out of the program, which is what a record names
    have hslice := hbehind.slice
    have hhere : scanner.nextToken.scanner.tokenSpan
        = .upTo (scanner.cursor.location.advance gap)
            (scanner.cursor.location.advance (gap ++ lexeme)).offset := by
      rw [hafter]
      rfl
    have hthere : scanner.nextToken.scanner.cursor.location
        = scanner.cursor.location.advance (gap ++ lexeme) := by
      rw [hafter]
      rfl
    let placed : PlacedToken := ⟨read.token, scanner.nextToken.scanner.tokenSpan⟩
    let records := (Scanner.saturation read).map Event.record ++ [tokenRecord placed]
    have hfirst : Accounts source placed records := accounts_of_first? hfound rfl (htext ▸ hslice)
    rw [readAll_of_token hresult hdenotes.kind_ne_endOfInput]
    refine ⟨records :: groups, ?_, ?_⟩
    · have hinside : decide (placed.token.kind ≠ .endOfInput) = true :=
        decide_eq_true hdenotes.kind_ne_endOfInput
      show List.Forall₂ _ (List.filter _ (placed :: _)) _
      rw [List.filter_cons, if_pos hinside]
      exact .cons hfirst haccounts
    · rw [List.map_append, hmore, hevents, hthere, List.flatten_cons, List.flatMap_cons,
        Location.advance_append _ (Piece.text _)]
      simp [records, tokenRecord, Event.record, placed, hhere, Span.upTo, Piece.text]

/-- What the separators at the end of a program report is what the account of its ending
says. -/
theorem accountsEnding_of_decomposes {source : List Char} {pieces : List Piece} {ending : Ending}
    (hparts : Decomposes source pieces ending) :
    AccountsEnding source
      ((Scanner.openComments (Location.start.advance (pieces.flatMap Piece.text))
          (Separator.split ending.text).1).map Event.record) := by
  cases ending with
  | finished gap =>
    have hlast : IsLastGap gap := hparts.isEnding
    rcases hlast with hgap | ⟨hgap, hunclosed⟩
    · have hnothing : ∀ c ∈ ([] : List Char).head?, Separator.starts c = false := by simp
      have hsilent := Scanner.openComments_of_not_starts hgap hnothing
      rw [List.append_nil] at hsilent
      rw [Ending.text, hsilent]
      exact .closed (hparts.not_endsOpen hgap)
    · rw [Ending.text, Scanner.openComments_unclosed hgap hunclosed, ← Location.advance_append]
      exact .unclosed hparts hgap hunclosed
  | stray gap c rest =>
    obtain ⟨hgap, hstray⟩ := hparts.isEnding
    rw [Ending.text, Scanner.openComments_of_not_starts hgap (hstray.stops rest)]
    -- a text falls apart in one way only, so it does not end inside a comment as well
    refine .closed ?_
    rintro ⟨others, before, body, hparts', -⟩
    exact Ending.noConfusion (hparts.unique hparts').2

/-- **The log of a scan is an exact account of it.**  Token after token, a program's records
are those that account for the token; the only others stand at the end, for a comment that is
never closed. -/
theorem log_readProgram (source : String) :
    ∃ groups last,
      List.Forall₂ (Accounts source.toList)
        ((readProgram source).tokens.filter (·.token.kind ≠ .endOfInput)) groups ∧
      (readProgram source).events.map Event.record = groups.flatten ++ last ∧
      AccountsEnding source.toList last := by
  obtain ⟨pieces, ending, hparts⟩ := exists_decomposes source.toList
  obtain ⟨groups, haccounts, hevents⟩ := (Scanner.stands_start source.toList).log hparts rfl
  exact ⟨groups, _, haccounts, hevents, accountsEnding_of_decomposes hparts⟩

end MiniPascal
