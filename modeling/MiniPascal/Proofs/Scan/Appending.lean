import MiniPascal.Proofs.Diagnostic.Pointing
import MiniPascal.Proofs.Grammar.Lookahead
import MiniPascal.Proofs.Scan.Locality

/-!
# Appending Text

Two scanners at the same place, one of them with more text behind the rest of its own, find
the same tokens for as long as the tokens end before the additional text (§1).  Two laws
about whole programs follow:

- `decided_append`: what was read before the end of a program, or up to an error in it, is
  read of every longer program as well;
- `scan_join`: two programs with a gap between them are read one after the other.
-/

namespace MiniPascal

open Grammar

namespace Scanner

/-! ## §1 The same token -/

/-- `longer` stands where `scanner` does and has `more` to read behind the rest. -/
structure Extends (more : List Char) (scanner longer : Scanner) : Prop where
  rest : longer.cursor.rest = scanner.cursor.rest ++ more
  location : longer.cursor.location = scanner.cursor.location

variable {more : List Char} {scanner longer : Scanner}

/-- **A token ends before the additional text** if something is left behind it, or if a
separator comes first.  Then it is found in both texts, at the same place. -/
theorem Extends.token {token : Token} (hextended : Extends more scanner longer)
    (hfound : scanner.nextToken.result = .ok token) (hinside : token.kind ≠ .endOfInput)
    (hapart : scanner.nextToken.scanner.cursor.rest ≠ [] ∨
      ∀ c ∈ more.head?, Separator.starts c = true) :
    longer.nextToken.result = .ok token ∧
      longer.nextToken.scanner.tokenSpan = scanner.nextToken.scanner.tokenSpan ∧
      Extends more scanner.nextToken.scanner longer.nextToken.scanner := by
  obtain ⟨after, hsame, hfinds⟩ := exists_finds hfound
  rw [hsame] at hapart ⊢
  cases hfinds with
  | endOfInput => exact absurd rfl hinside
  | @token gap lexeme rest _ hbefore hlongest hwhole hdenotes =>
    -- the lexeme is the longest in the longer text too, by either of the two conditions
    have hlongest' : IsLongest lexeme (lexeme ++ (rest ++ more)) := by
      rcases hapart with hleft | hseparated
      · exact hlongest.append hleft more
      · cases rest with
        | nil => exact hlongest.isLexeme.isLongest_append hseparated
        | cons c rest => exact hlongest.append (List.cons_ne_nil c rest) more
    have hwhole' : longer.cursor.rest = gap ++ (lexeme ++ (rest ++ more)) := by
      rw [hextended.rest, hwhole]
      simp
    obtain ⟨token', hdenotes', hresult, hlater⟩ := nextToken_of_lexeme hbefore hlongest' hwhole'
    obtain rfl := hdenotes.unique hdenotes'
    rw [hlater, hextended.location]
    exact ⟨hresult, rfl, rfl, rfl⟩

/-- **An error** does not depend on what stands behind its character. -/
theorem Extends.error {error : LexicalError} (hextended : Extends more scanner longer)
    (hfailed : scanner.nextToken.result = .error error) :
    longer.nextToken.result = .error error := by
  obtain ⟨after, -, hfinds⟩ := exists_finds hfailed
  cases hfinds with
  | @stray gap rest c hbefore hstray hwhole =>
    have hwhole' : longer.cursor.rest = gap ++ c :: (rest ++ more) := by
      rw [hextended.rest, hwhole]
      simp
    obtain ⟨hresult, -⟩ := nextToken_of_stray hbefore hstray hwhole'
    rw [hresult, hextended.location]

/-! ## §2 What is decided stays decided -/

/-- The place behind the last character of the text. -/
def lastPlace (scanner : Scanner) : Location :=
  scanner.cursor.location.advance scanner.cursor.rest

theorem lastPlace_nextToken (scanner : Scanner) :
    scanner.nextToken.scanner.lastPlace = scanner.lastPlace := by
  obtain ⟨m, n, hmoved, -⟩ := proceeds_nextToken scanner
  rw [Cursor.drop_drop] at hmoved
  -- what a call passes is a part of the rest, and behind both parts the text ends as before
  unfold lastPlace
  rw [hmoved]
  show (scanner.cursor.location.advance (scanner.cursor.rest.take (m + n))).advance
    (scanner.cursor.rest.drop (m + n)) = _
  rw [← Location.advance_append, List.take_append_drop]

/-- **A reading is kept** by a longer one: the tokens that end before the offset `stop` are
there again, and so is everything up to an error. -/
structure Keeps (stop : Nat) (reading longer : Reading) : Prop where
  tokens : ∀ (i : Nat) (placed : PlacedToken), reading.tokens[i]? = some placed →
    placed.span.stop < stop → longer.tokens[i]? = some placed
  failure : ∀ error, reading.error? = some error →
    longer.error? = some error ∧ longer.tokens = reading.tokens

/-- Where nothing ends before `stop`, there is nothing to keep. -/
theorem Keeps.of_stops {stop : Nat} {reading : Reading} (hcomplete : reading.error? = none)
    (hstops : ∀ placed ∈ reading.tokens, placed.span.stop = stop) (longer : Reading) :
    Keeps stop reading longer := by
  constructor
  · intro i placed hat' hbefore
    have hlast := hstops placed (List.mem_of_getElem? hat')
    omega
  · intro error hfailed
    rw [hcomplete] at hfailed
    cases hfailed

/-- The end of input stands at the last byte. -/
theorem readAll_of_ended (hended : scanner.nextToken.result = .ok .endOfInput) :
    scanner.readAll.error? = none ∧
      ∀ placed ∈ scanner.readAll.tokens, placed.span.stop = scanner.lastPlace.offset := by
  obtain ⟨-, hafter⟩ := nextToken_of_lastGap (isLastGap_of_nextToken hended)
  rw [readAll_of_endOfInput hended, hafter]
  refine ⟨rfl, ?_⟩
  intro placed hamong
  obtain rfl := List.mem_singleton.mp hamong
  rfl

/-- **Appending keeps a reading.** -/
theorem Extends.readAll (hextended : Extends more scanner longer) :
    Keeps scanner.lastPlace.offset scanner.readAll longer.readAll := by
  induction scanner using reading_induction generalizing longer with
  | ended scanner hresult =>
    obtain ⟨hcomplete, hstops⟩ := readAll_of_ended hresult
    exact .of_stops hcomplete hstops _
  | failed scanner error hresult =>
    rw [readAll_of_error hresult, readAll_of_error (hextended.error hresult)]
    exact ⟨nofun, fun _ hsame => ⟨hsame, rfl⟩⟩
  | found scanner token hresult hinside ih =>
    have hplace := lastPlace_nextToken scanner
    by_cases hended : scanner.nextToken.scanner.cursor.rest = []
    -- nothing is left behind the token, which may go on in the longer text
    · have hlast : IsLastGap scanner.nextToken.scanner.cursor.rest := hended ▸ .closed .nil
      obtain ⟨hcomplete, hstops⟩ := readAll_of_ended (nextToken_of_lastGap hlast).1
      have hstop : scanner.nextToken.scanner.tokenSpan.stop = scanner.lastPlace.offset := by
        rw [← hplace, lastPlace, hended]
        rfl
      rw [hplace] at hstops
      rw [readAll_of_token hresult hinside]
      apply Keeps.of_stops
      · exact hcomplete
      · intro placed hamong
        rcases List.mem_cons.mp hamong with rfl | hbehind
        · exact hstop
        · exact hstops placed hbehind
    -- the token ends here in both texts
    · obtain ⟨hresult', hspan, hfurther⟩ := hextended.token hresult hinside (.inl hended)
      have hkeeps := ih hfurther
      rw [hplace] at hkeeps
      rw [readAll_of_token hresult hinside, readAll_of_token hresult' hinside, hspan]
      constructor
      · intro i placed hat' hbefore
        cases i with
        | zero => exact hat'
        | succ i => exact hkeeps.tokens i placed hat' hbefore
      · intro error hfailed
        obtain ⟨hagain, hsame⟩ := hkeeps.failure error hfailed
        exact ⟨hagain, congrArg (List.cons _) hsame⟩

/-! ## §3 Programs with a gap between them -/

/-- Behind a gap the same is read as before it. -/
theorem readAll_drop {gap rest : List Char} (hgap : IsGap gap)
    (hwhole : scanner.cursor.rest = gap ++ rest) :
    (scanner.drop gap.length).readAll.tokens = scanner.readAll.tokens ∧
      (scanner.drop gap.length).readAll.error? = scanner.readAll.error? := by
  -- the first token is the same, with all that is read behind it
  have hskipped : (scanner.drop gap.length).skipSeparators.scanner
      = scanner.skipSeparators.scanner :=
    skipSeparators_drop (rest_split_drop hgap hwhole.symm)
  obtain ⟨hresult, hafter⟩ := nextToken_congr hskipped
  rcases nextToken_cases scanner with hfound | ⟨error, hfound⟩ | ⟨token, hfound, hinside⟩
  · rw [readAll_of_endOfInput hfound, readAll_of_endOfInput (hresult.trans hfound), hafter]
    exact ⟨rfl, rfl⟩
  · rw [readAll_of_error hfound, readAll_of_error (hresult.trans hfound)]
    exact ⟨rfl, rfl⟩
  · rw [readAll_of_token hfound hinside, readAll_of_token (hresult.trans hfound) hinside, hafter]
    exact ⟨rfl, rfl⟩

/-- No comment is left open behind a token if none is before it. -/
theorem not_endsOpen_nextToken {token : Token} (hclosed : ¬ EndsOpen scanner.cursor.rest)
    (hfound : scanner.nextToken.result = .ok token) (hinside : token.kind ≠ .endOfInput) :
    ¬ EndsOpen scanner.nextToken.scanner.cursor.rest := by
  obtain ⟨after, hsame, hfinds⟩ := exists_finds hfound
  rw [hsame]
  cases hfinds with
  | endOfInput => exact absurd rfl hinside
  | token hbefore hlongest hwhole =>
    intro hended
    rw [hwhole] at hclosed
    exact hclosed (hended.behind hbefore hlongest)

/-- **Two texts with a gap between them are read one after the other.**  The first one must
be read up to its end, which must not lie inside a comment. -/
theorem Extends.readAll_join {gap right : List Char} {base : Location} (hgap : IsGap gap)
    (hapart : gap ≠ []) (hextended : Extends (gap ++ right) scanner longer)
    (hcomplete : scanner.readAll.error? = none) (hclosed : ¬ EndsOpen scanner.cursor.rest)
    (hpassed : scanner.lastPlace.advance gap = base) :
    ∃ before last, scanner.readAll.tokens = before ++ [last] ∧
      longer.readAll.tokens = before ++ (start right).readAll.tokens.map (·.within base) ∧
      longer.readAll.error? = (start right).readAll.error?.map (·.within base) := by
  induction scanner using reading_induction generalizing longer with
  | ended scanner hresult =>
    have hlast := isLastGap_of_nextToken hresult
    -- what is left of the first text and the gap behind it are one gap
    have hgaps := (hlast.isGap hclosed).append hgap
    have hwhole : longer.cursor.rest = (scanner.cursor.rest ++ gap) ++ right := by
      rw [hextended.rest, List.append_assoc]
    obtain ⟨htokens, herror⟩ := readAll_drop hgaps hwhole
    have hmoved : (longer.drop (scanner.cursor.rest ++ gap).length).cursor
        = ⟨longer.cursor.source, right,
            longer.cursor.location.advance (scanner.cursor.rest ++ gap)⟩ :=
      Cursor.drop_length hwhole
    have hresumes : Resumes base (start right)
        (longer.drop (scanner.cursor.rest ++ gap).length) := by
      refine ⟨by rw [hmoved]; rfl, [], rfl, ?_⟩
      rw [hmoved, hextended.location, Location.advance_append]
      exact hpassed
    obtain ⟨htokens', herror', -⟩ := hresumes.readAll
    rw [readAll_of_endOfInput hresult, ← htokens, ← herror]
    exact ⟨[], _, rfl, htokens', herror'⟩
  | failed scanner error hresult =>
    rw [readAll_of_error hresult] at hcomplete
    cases hcomplete
  -- a token stays apart from the right text by the gap, and the comments stay closed
  | found scanner token hresult hinside ih =>
    have hseparated : ∀ c ∈ (gap ++ right).head?, Separator.starts c = true := by
      rw [List.head?_append_of_ne_nil _ hapart]
      exact hgap.starts
    obtain ⟨hresult', hspan, hfurther⟩ := hextended.token hresult hinside (.inr hseparated)
    rw [readAll_of_token hresult hinside] at hcomplete ⊢
    rw [readAll_of_token hresult' hinside, hspan]
    have hclosed' := not_endsOpen_nextToken hclosed hresult hinside
    have hpassed' : scanner.nextToken.scanner.lastPlace.advance gap = base := by
      rw [lastPlace_nextToken]
      exact hpassed
    obtain ⟨found, last, htokens, htokens', herror'⟩ := ih hfurther hcomplete hclosed' hpassed'
    refine ⟨⟨token, scanner.nextToken.scanner.tokenSpan⟩ :: found, last, ?_, ?_, herror'⟩
    · exact congrArg (List.cons _) htokens
    · exact congrArg (List.cons _) htokens'

end Scanner

/-! ## §4 Whole programs -/

open Scanner

/-- A program that begins with another one extends its scanner at the start. -/
theorem extends_start (text more : List Char) :
    Extends more (start text) (start (text ++ more)) :=
  ⟨rfl, rfl⟩

/-- **What is decided stays decided.**  A token that ends before the last byte of a program
is read of every longer program, in the same order and at the same place; and a program with
an error has the same error, behind the same tokens, whatever is appended to it. -/
theorem decided_append (source more : String) :
    (∀ (i : Nat) (placed : PlacedToken), (readProgram source).tokens[i]? = some placed →
      placed.span.stop < source.utf8ByteSize →
      (readProgram (source ++ more)).tokens[i]? = some placed) ∧
    ∀ error, scan source = .error error →
      scan (source ++ more) = .error error ∧
      (readProgram (source ++ more)).tokens = (readProgram source).tokens := by
  have hextended := extends_start source.toList more.toList
  rw [← String.toList_append] at hextended
  have hkeeps := hextended.readAll
  have hsize : (start source.toList).lastPlace.offset = source.utf8ByteSize := by
    rw [← byteLength_toList]
    exact offset_advance_start _
  rw [hsize] at hkeeps
  refine ⟨hkeeps.tokens, ?_⟩
  intro error hfailure
  obtain ⟨hagain, hsame⟩ := hkeeps.failure error (Reading.of_outcome_error hfailure)
  exact ⟨Reading.outcome_eq_error_iff.mpr hagain, hsame⟩

/-- An assignment sign before a comment that only the longer program closes, and a letter that
begins no word, although a digit follows it there. -/
theorem decided_append_openComment :
    (readProgram ("x:=\x7b" ++ "\x7d 2")).tokens[1]?
        = some ⟨.mark .assign, ⟨1, 3, 1, 2⟩⟩ ∧
      scan ("é" ++ "1") = .error ⟨'é', ⟨0, 2, 1, 1⟩⟩ := by
  have hsign : (readProgram "x:=\x7b").tokens[1]? = some ⟨.mark .assign, ⟨1, 3, 1, 2⟩⟩ := by
    decide +kernel
  have hfailure : scan "é" = .error ⟨'é', ⟨0, 2, 1, 1⟩⟩ := by
    decide +kernel
  exact ⟨(decided_append _ _).1 _ _ hsign (by decide), ((decided_append _ _).2 _ hfailure).1⟩

/-- Behind `before`, the span of a character is further on by the bytes, the lines and, in
the first line, the columns of that text. -/
theorem Span.within_advance_start (before : List Char) {span : Span} (hline : 1 ≤ span.line) :
    span.within (Location.start.advance before)
      = ⟨span.start + byteLength before, span.stop + byteLength before,
          span.line + before.count '\n',
          if 1 < span.line then span.column else span.column + (lastLine before).length⟩ := by
  unfold within Location.lineWithin Location.columnWithin
  rw [offset_advance_start, line_advance_start, column_advance_start]
  simp only [mk.injEq]
  refine ⟨Nat.add_comm .., Nat.add_comm .., by omega, ?_⟩
  split <;> split <;> omega

/-- **Layout and comments are invisible.**  A program and another one behind a gap are
scanned into the tokens of both, whatever the gap is, as long as the first program has no
error and no open comment.  An error of the second one is found at its place behind the gap. -/
theorem scan_join {left gap right : String} {tokens : List Token}
    (hcomplete : scan left = .ok (tokens ++ [.endOfInput])) (hclosed : ¬ EndsOpen left.toList)
    (hgap : IsGap gap.toList) (hapart : gap ≠ "") :
    (∀ more, scan right = .ok more → scan (left ++ gap ++ right) = .ok (tokens ++ more)) ∧
    (∀ error, scan right = .error error →
      let before := (left ++ gap).toList
      scan (left ++ gap ++ right) = .error ⟨error.character,
        ⟨error.span.start + byteLength before, error.span.stop + byteLength before,
          error.span.line + before.count '\n',
          if 1 < error.span.line then error.span.column
          else error.span.column + (lastLine before).length⟩⟩) ∧
    (readProgram (left ++ gap ++ right)).tokens.map PlacedToken.token
      = tokens ++ (readProgram right).tokens.map PlacedToken.token := by
  obtain ⟨hnoError, hsame⟩ := Reading.of_outcome_ok hcomplete
  have hextended := extends_start left.toList (gap.toList ++ right.toList)
  have hinside : gap.toList ≠ [] := by simpa using hapart
  -- the right program begins behind the left one and the gap
  have hpassed : (start left.toList).lastPlace.advance gap.toList
      = Location.start.advance (left ++ gap).toList := by
    rw [String.toList_append, Location.advance_append]
    rfl
  obtain ⟨found, last, hread, hjoined, hfailed⟩ :=
    hextended.readAll_join hgap hinside hnoError hclosed hpassed
  have hwhole : left.toList ++ (gap.toList ++ right.toList) = (left ++ gap ++ right).toList := by
    simp
  rw [hwhole] at hjoined hfailed
  -- the last token of the first program is the end of input
  have hfirst : found.map PlacedToken.token = tokens := by
    change (start left.toList).readAll.tokens.map _ = _ at hsame
    rw [hread, List.map_append] at hsame
    exact (List.append_inj' hsame rfl).1
  have hboth : (readProgram (left ++ gap ++ right)).tokens.map PlacedToken.token
      = tokens ++ (readProgram right).tokens.map PlacedToken.token := by
    show (start (left ++ gap ++ right).toList).readAll.tokens.map _ = _
    rw [hjoined, List.map_append, hfirst, List.map_map]
    rfl
  have herror : (readProgram (left ++ gap ++ right)).error?
      = (readProgram right).error?.map (·.within (Location.start.advance (left ++ gap).toList)) :=
    hfailed
  refine ⟨?_, ?_, hboth⟩
  · intro more hsuccess
    obtain ⟨hnone, rfl⟩ := Reading.of_outcome_ok hsuccess
    rw [scan, Reading.outcome, herror, hnone, hboth]
    rfl
  · intro error' hfailure before
    have hsome := Reading.of_outcome_error hfailure
    obtain ⟨text, -, -, -, hspan⟩ := exists_of_scan_error hfailure
    -- the line of an error is counted from one, as the shift of its column supposes
    have hline : 1 ≤ error'.span.line := by
      rw [hspan]
      show 1 ≤ (Location.start.advance text).line
      rw [line_advance_start]
      exact Nat.le_add_right ..
    rw [scan, Reading.outcome_eq_error_iff, herror, hsome, ← Span.within_advance_start before hline]
    rfl

/-- Digits, and a point with a digit behind it: the comment between them keeps them apart, and
its line feed and its letter of two bytes move the error. -/
theorem scan_join_pointBehindDigits :
    scan ("12" ++ "\x7bé\n\x7d " ++ ".5 ?") = .error ⟨'?', ⟨11, 12, 2, 6⟩⟩ ∧
      (readProgram ("12" ++ "\x7bé\n\x7d " ++ ".5 ?")).tokens.map PlacedToken.token
        = [.integer 12, .mark .dot, .integer 5] := by
  have hcomplete : scan "12" = .ok ([.integer 12] ++ [.endOfInput]) := by
    decide +kernel
  have hclosed : ¬ EndsOpen "12".toList := by
    have hnumber : IsLexeme ['1', '2'] := .integer (by simp) (by simp)
    have hlongest : IsLongest ['1', '2'] (['1', '2'] ++ []) := hnumber.isLongest
    exact (Decomposes.lexeme .nil hlongest (.finished (.closed .nil))).not_endsOpen .nil
  have hgap : IsGap "\x7bé\n\x7d ".toList :=
    @IsGap.comment ['é', '\n'] _ (by decide) (.blank (isBlank_of_isWhitespace rfl) .nil)
  have hfailure : scan ".5 ?" = .error ⟨'?', ⟨3, 4, 1, 4⟩⟩ := by
    decide +kernel
  have htokens : (readProgram ".5 ?").tokens.map PlacedToken.token
      = [.mark .dot, .integer 5] := by
    decide +kernel
  obtain ⟨-, hfailed, hjoined⟩ := @scan_join _ _ ".5 ?" _ hcomplete hclosed hgap (by decide)
  refine ⟨(hfailed _ hfailure).trans (by decide +kernel), ?_⟩
  rw [hjoined, htokens]
  rfl

end MiniPascal
