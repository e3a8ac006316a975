import MiniPascal.Proofs.Grammar.Reading
import MiniPascal.Proofs.Scan.Checked

/-!
# No Cut Fails and No Counter Overflows

A scanner by offsets does what a `Scanner` does: whatever operations are called on it, in
whatever order, it never fails on a text short enough for its counters, and after each
of them the two stand at the same place with the same token and the same result.

- `CheckedCursor.Tracks`, `CheckedScanner.Tracks`: what the two have in common, with one
  lemma for each operation that keeps it;
- `exists_tracks_run`: all of this for a run.
-/

namespace MiniPascal

/-! ## §1 Cursors -/

namespace Cursor

variable {cursor : Cursor}

theorem rest_skipWhile (cursor : Cursor) (p : Char → Bool) :
    (cursor.skipWhile p).rest = cursor.rest.dropWhile p := by
  have hparts := List.takeWhile_append_dropWhile (p := p) (l := cursor.rest)
  rw [skipWhile, drop_length hparts.symm]

/-- Nothing is passed at the end of the text. -/
theorem advance_of_end (hatEnd : cursor.current? = none) : cursor.advance = cursor := by
  rcases cursor with ⟨source, rest, location⟩
  -- the rest is empty, and so is what is passed of it
  obtain rfl := List.head?_eq_none_iff.mp hatEnd
  rfl

theorem drop_length_take (cursor : Cursor) (n : Nat) :
    cursor.drop (cursor.rest.take n).length = cursor.drop n := by
  have hpart := List.take_append_drop n cursor.rest
  rw [drop_length hpart.symm]
  rfl

end Cursor

namespace CheckedCursor

/-- The two cursors stand at the same place of a text that is short enough. -/
structure Tracks (checked : CheckedCursor) (cursor : Cursor) : Prop where
  short : cursor.source.length + 1 < UInt32.size
  stands : ∃ passed, cursor.source = passed ++ cursor.rest ∧
    cursor.location = Location.start.advance passed
  source : checked.source = cursor.source
  position : checked.position = cursor.position
  current? : checked.current? = cursor.current?
  line : checked.line.toNat = cursor.location.line
  column : checked.column.toNat = cursor.location.column

variable {checked : CheckedCursor} {cursor : Cursor}

theorem tracks_start {source : List Char} (hshort : source.length + 1 < UInt32.size) :
    (start source).Tracks (.start source) :=
  ⟨hshort, ⟨[], rfl, rfl⟩, rfl, rfl, rfl, rfl, rfl⟩

theorem exists_succ? {n : UInt32} (hroom : n.toNat + 1 < UInt32.size) :
    ∃ m, succ? n = some m ∧ m.toNat = n.toNat + 1 := by
  refine ⟨n + 1, if_pos hroom, ?_⟩
  rw [UInt32.toNat_add]
  exact Nat.mod_eq_of_lt hroom

/-- The counters behind a character are those of the next location. -/
theorem exists_count? {here : Location} (hline : checked.line.toNat = here.line)
    (hcolumn : checked.column.toNat = here.column) (hlines : here.line + 1 < UInt32.size)
    (hcolumns : here.column + 1 < UInt32.size) (c : Char) :
    ∃ next, checked.count? c = some next ∧ next.1.toNat = (here.next c).line ∧
      next.2.toNat = (here.next c).column := by
  -- one counter goes on and the other stays or begins again, by the character
  unfold count? Location.next
  by_cases hfeed : c = '\n'
  · obtain ⟨next, hcounted, hvalue⟩ := exists_succ? (hline ▸ hlines)
    refine ⟨(next, 1), ?_, ?_, ?_⟩
    · rw [if_pos hfeed, hcounted]
      rfl
    · rw [if_pos hfeed]
      exact hvalue.trans (by rw [hline])
    · rw [if_pos hfeed]
      rfl
  · obtain ⟨next, hcounted, hvalue⟩ := exists_succ? (hcolumn ▸ hcolumns)
    refine ⟨(checked.line, next), ?_, ?_, ?_⟩
    · rw [if_neg hfeed, hcounted]
      rfl
    · rw [if_neg hfeed]
      exact hline
    · rw [if_neg hfeed]
      exact hvalue.trans (by rw [hcolumn])

/-- The place behind a text is no further down, and no further right, than the text has
characters. -/
theorem counters_le_length (text : List Char) :
    (Location.start.advance text).line ≤ 1 + text.length ∧
      (Location.start.advance text).column ≤ 1 + text.length := by
  rw [line_advance_start, column_advance_start]
  have hlines := List.count_le_length (a := '\n') (l := text)
  have hcolumns := (List.rtakeWhile_suffix (· ≠ '\n') text).length_le
  exact ⟨Nat.add_le_add_left hlines 1, Nat.add_le_add_left hcolumns 1⟩

/-- **A step stays on the track.**  It counts no further than the text is long, and cuts the
text behind a character. -/
theorem Tracks.advance (htracks : checked.Tracks cursor) :
    ∃ after, checked.advance? = some after ∧ after.Tracks cursor.advance := by
  obtain ⟨passed, hwhole, hhere⟩ := htracks.stands
  cases hahead : cursor.rest with
  | nil =>
    -- neither cursor moves at the end of the text
    have hgone : checked.current? = none := by
      rw [htracks.current?, Cursor.current?, hahead]
      rfl
    have hstays : cursor.advance = cursor := Cursor.advance_of_end (htracks.current? ▸ hgone)
    refine ⟨checked, ?_, hstays.symm ▸ htracks⟩
    simp only [advance?, hgone]
  | cons c rest =>
    have hthere : checked.current? = some c := by
      rw [htracks.current?, Cursor.current?, hahead]
      rfl
    have hmoved : cursor.drop [c].length = ⟨cursor.source, rest, cursor.location.next c⟩ :=
      Cursor.drop_length hahead
    rw [hahead] at hwhole
    -- the counters have room, for the character here is not among those that were passed
    have hbounds := counters_le_length passed
    have hshort := htracks.short
    rw [hwhole, List.length_append, List.length_cons] at hshort
    rw [← hhere] at hbounds
    obtain ⟨next, hcounted, hline, hcolumn⟩ :=
      exists_count? htracks.line htracks.column (by omega) (by omega) c
    -- the cut is made behind the character
    have hbehind : checked.position + c.utf8Size = byteLength (passed ++ [c]) := by
      rw [htracks.position, Cursor.position, hhere, offset_advance_start, byteLength_append]
      rfl
    have hcut : dropBytes? (checked.position + c.utf8Size) checked.source = some rest := by
      have hcut := dropBytes?_append (passed ++ [c]) rest
      rwa [← List.append_cons, ← hwhole, ← htracks.source, ← hbehind] at hcut
    refine ⟨⟨checked.source, checked.position + c.utf8Size, rest.head?, next.1, next.2⟩, ?_, ?_⟩
    · simp only [advance?, hthere, hcounted, hcut, Option.bind_some, Option.map_some]
    · show Tracks _ (cursor.drop [c].length)
      rw [hmoved]
      refine ⟨htracks.short, ⟨passed ++ [c], ?_, ?_⟩, htracks.source, ?_, rfl, hline, hcolumn⟩
      · rw [hwhole, List.append_cons]
      · rw [Location.advance_append, ← hhere]
        rfl
      · show _ = (cursor.location.next c).offset
        rw [Location.next_offset, htracks.position]
        rfl

theorem Tracks.eatWhile (htracks : checked.Tracks cursor) (p : Char → Bool) :
    ∃ after, checked.eatWhile? p = some after ∧ after.Tracks (cursor.skipWhile p) := by
  -- the loop passes one character at a time, and so does `skipWhile_eq_advance`
  fun_induction eatWhile? checked p generalizing cursor with
  | case1 checked hgone =>
    rw [htracks.current?] at hgone
    rw [Cursor.skipWhile_eq_advance, hgone]
    exact ⟨checked, rfl, htracks⟩
  | case2 checked c hthere hc hstuck =>
    obtain ⟨after, hmoved, -⟩ := htracks.advance
    rw [hmoved] at hstuck
    cases hstuck
  | case3 checked c hthere hc next hstep ih =>
    obtain ⟨after, hmoved, hkeeps⟩ := htracks.advance
    obtain rfl := Option.some.inj (hmoved.symm.trans hstep)
    rw [htracks.current?] at hthere
    rw [Cursor.skipWhile_eq_advance, hthere, Option.any_some, if_pos hc]
    exact ih hkeeps
  | case4 checked c hthere hc =>
    rw [htracks.current?] at hthere
    rw [Cursor.skipWhile_eq_advance, hthere, Option.any_some, if_neg hc]
    exact ⟨checked, rfl, htracks⟩

/-- What stands at the offset of a cursor is the rest of its text. -/
theorem Tracks.rest (htracks : checked.Tracks cursor) :
    dropBytes? checked.position checked.source = some cursor.rest := by
  obtain ⟨passed, hwhole, hhere⟩ := htracks.stands
  rw [htracks.position, htracks.source, Cursor.position, hhere, offset_advance_start, hwhole]
  exact dropBytes?_append ..

theorem Tracks.peek (htracks : checked.Tracks cursor) : checked.peek? = some cursor.peek? := by
  rw [peek?, htracks.rest]
  rfl

/-- What was passed on the way from one place to another is cut out between the two. -/
theorem Tracks.textFrom {after : CheckedCursor} {n : Nat} (htracks : checked.Tracks cursor)
    (hfurther : after.Tracks (cursor.drop n)) :
    after.textFrom? checked.position = some (cursor.rest.take n) := by
  obtain ⟨passed, hwhole, hhere⟩ := htracks.stands
  -- both offsets are lengths of initial parts of the text, and one continues the other
  have hfirst : checked.position = byteLength passed := by
    rw [htracks.position, Cursor.position, hhere, offset_advance_start]
  have hlast : after.position = byteLength (passed ++ cursor.rest.take n) := by
    rw [hfurther.position]
    show (cursor.location.advance _).offset = _
    rw [hhere, ← Location.advance_append, offset_advance_start]
  have hcut := sliceBytes?_middle passed (cursor.rest.take n) (cursor.rest.drop n)
  rw [List.take_append_drop, ← hwhole] at hcut
  rw [textFrom?, hfirst, hlast, hfurther.source]
  exact hcut

end CheckedCursor

/-! ## §2 Colons and separators, one step at a time -/

/-- Whether a colon is an assignment sign is decided by the character behind it. -/
theorem Lexeme.colon_eq (text : List Char) :
    Lexeme.colon text =
      if text.tail.head? = some '=' then ⟨Token.mark .assign, text.take 2, false⟩
      else ⟨Token.mark .colon, text.take 1, false⟩ := by
  unfold Lexeme.colon
  split
  · rfl
  · rename_i hapart
    rw [if_neg]
    intro hequals
    obtain ⟨rest, hbehind⟩ := List.head?_eq_some_iff.mp hequals
    cases text with
    | nil => cases hbehind
    | cons c more => exact hapart c rest (congrArg (c :: ·) hbehind)

namespace Scanner

variable {scanner : Scanner}

/-- Separators can be passed in several goes. -/
theorem skipSeparators_drop {n : Nat}
    (hsame : (Separator.split (scanner.cursor.rest.drop n)).2
      = (Separator.split scanner.cursor.rest).2) :
    (scanner.drop n).skipSeparators.scanner = scanner.skipSeparators.scanner := by
  -- what is left behind the separators is the same, and so is what lies before it
  have hparts := Separator.spellAll_append_of_split (scanner.cursor.rest.drop n)
  have hwhole : scanner.cursor.rest
      = (scanner.cursor.rest.take n
          ++ Separator.spellAll (Separator.split (scanner.cursor.rest.drop n)).1)
        ++ (Separator.split (scanner.cursor.rest.drop n)).2 := by
    rw [List.append_assoc, hparts, List.take_append_drop]
  have hhere : (scanner.drop n).cursor.rest
      = Separator.spellAll (Separator.split (scanner.cursor.rest.drop n)).1
        ++ (Separator.split (scanner.cursor.rest.drop n)).2 := hparts.symm
  rw [Grammar.scanner_skipSeparators hwhole hsame.symm, Grammar.scanner_skipSeparators hhere rfl,
    Location.advance_append]
  rfl

/-- Result and scanner depend on the place behind the separators only. -/
theorem nextToken_congr {left right : Scanner}
    (hsame : left.skipSeparators.scanner = right.skipSeparators.scanner) :
    left.nextToken.result = right.nextToken.result ∧
      left.nextToken.scanner = right.nextToken.scanner := by
  unfold nextToken
  simp only [hsame]
  split
  · exact ⟨rfl, rfl⟩
  · split <;> exact ⟨rfl, rfl⟩

theorem skipSeparators_skipBlanks (scanner : Scanner) :
    scanner.skipBlanks.skipSeparators.scanner = scanner.skipSeparators.scanner := by
  apply skipSeparators_drop
  exact Grammar.rest_split_drop (Grammar.isGap_blanks fun _ => List.mem_takeWhile_imp)
    List.takeWhile_append_dropWhile

theorem skipSeparators_comment {rest : List Char} (hbrace : scanner.cursor.rest = '\x7b' :: rest) :
    scanner.advance.skipComment.scanner.skipSeparators.scanner
      = scanner.skipSeparators.scanner := by
  have hbody : scanner.advance.cursor.rest = rest := by
    show scanner.cursor.rest.drop 1 = rest
    rw [hbrace]
    rfl
  have hmoved : scanner.advance.skipComment.scanner
      = scanner.drop (1 + ((rest.takeWhile (· ≠ '\x7d')).length + 1)) := by
    show scanner.advance.drop _ = _
    rw [hbody]
    simp only [advance, drop, Cursor.drop_drop]
  rw [hmoved]
  apply skipSeparators_drop
  rw [hbrace, ← List.drop_drop]
  exact Grammar.rest_split_comment rest

theorem skipSeparators_of_stops
    (hstops : ∀ c ∈ scanner.cursor.rest.head?, Separator.starts c = false) :
    scanner.skipSeparators.scanner = scanner.markStart := by
  have hwhole : scanner.cursor.rest = [] ++ scanner.cursor.rest := rfl
  rw [Grammar.scanner_skipSeparators hwhole (by rw [Grammar.split_of_not_starts hstops])]
  rfl

end Scanner

/-! ## §3 Scanners by offsets -/

namespace CheckedScanner

/-- The two scanners stand at the same place, with the same token. -/
structure Tracks (checked : CheckedScanner) (scanner : Scanner) : Prop where
  cursor : checked.cursor.Tracks scanner.cursor
  tokenStart : checked.tokenStart = scanner.tokenStart.offset
  tokenLine : checked.tokenLine.toNat = scanner.tokenStart.line
  tokenColumn : checked.tokenColumn.toNat = scanner.tokenStart.column
  finished : checked.finished = scanner.finished

/-- An operation does not fail, and its result and the scanner behind it are as they
should be. -/
def Gives {α : Type} (found : Option (α × CheckedScanner)) (outcome : Outcome α) : Prop :=
  ∃ after, found = some (outcome.result, after) ∧ after.Tracks outcome.scanner

variable {checked : CheckedScanner} {scanner : Scanner}

theorem tracks_start {source : List Char} (hshort : source.length + 1 < UInt32.size) :
    (start source).Tracks (.start source) :=
  ⟨CheckedCursor.tracks_start hshort, rfl, rfl, rfl, rfl⟩

theorem Tracks.markStart (htracks : checked.Tracks scanner) :
    checked.markStart.Tracks scanner.markStart :=
  ⟨htracks.cursor, htracks.cursor.position, htracks.cursor.line, htracks.cursor.column,
    htracks.finished⟩

theorem Tracks.moveTo {after : CheckedCursor} {n : Nat} (htracks : checked.Tracks scanner)
    (hfurther : after.Tracks (scanner.cursor.drop n)) :
    (checked.moveTo after).Tracks (scanner.drop n) :=
  ⟨hfurther, htracks.tokenStart, htracks.tokenLine, htracks.tokenColumn, htracks.finished⟩

theorem Tracks.advance (htracks : checked.Tracks scanner) :
    ∃ after, checked.advance? = some after ∧ after.Tracks scanner.advance := by
  obtain ⟨after, hmoved, hfurther⟩ := htracks.cursor.advance
  exact ⟨checked.moveTo after, by rw [advance?, hmoved]; rfl, htracks.moveTo hfurther⟩

theorem Tracks.skipBlanks (htracks : checked.Tracks scanner) :
    ∃ after, checked.skipBlanks? = some after ∧ after.Tracks scanner.skipBlanks := by
  obtain ⟨after, hmoved, hfurther⟩ := htracks.cursor.eatWhile isBlank
  exact ⟨checked.moveTo after, by rw [skipBlanks?, hmoved]; rfl, htracks.moveTo hfurther⟩

theorem Tracks.skipComment (htracks : checked.Tracks scanner) :
    ∃ after, checked.skipComment? = some after ∧
      after.Tracks scanner.skipComment.scanner := by
  obtain ⟨body, heaten, hfurther⟩ := htracks.cursor.eatWhile (· ≠ '\x7d')
  have hthere := htracks.moveTo hfurther
  -- a comment without a closing brace leaves nothing to move over
  have hwhole : scanner.skipComment.scanner
      = (scanner.drop (scanner.cursor.rest.takeWhile (· ≠ '\x7d')).length).advance := by
    show scanner.drop _ = _
    simp only [Scanner.advance, Scanner.drop, Cursor.drop_drop]
  rw [hwhole]
  simp only [skipComment?, heaten, Option.bind_eq_bind, Option.bind_some]
  by_cases hatEnd : body.current? = none
  · refine ⟨checked.moveTo body, if_pos hatEnd, ?_⟩
    rw [hfurther.current?] at hatEnd
    have hstays : (scanner.drop _).advance = scanner.drop _ :=
      congrArg (fun cursor => ({ scanner with cursor } : Scanner)) (Cursor.advance_of_end hatEnd)
    rw [hstays]
    exact hthere
  · obtain ⟨after, hmoved, hlast⟩ := hthere.advance
    exact ⟨after, by rw [if_neg hatEnd, hmoved], hlast⟩

/-! ## §4 Lexemes -/

theorem Tracks.word (htracks : checked.Tracks scanner) : Gives checked.word? scanner.word := by
  obtain ⟨after, heaten, hfurther⟩ := htracks.cursor.eatWhile Char.isAlphanum
  -- the text is cut out between the two places, and is the run that was passed
  have htext := htracks.cursor.textFrom hfurther
  rw [← List.prefix_iff_eq_take.mp (List.takeWhile_prefix _)] at htext
  refine ⟨checked.moveTo after, ?_, htracks.moveTo hfurther⟩
  simp only [word?, heaten, Option.bind_eq_bind, Option.bind_some, htext]
  rfl

theorem Tracks.number (htracks : checked.Tracks scanner) :
    Gives checked.number? scanner.number := by
  obtain ⟨whole, heaten, hdigits⟩ := htracks.cursor.eatWhile Char.isDigit
  have hinitial := Lexeme.text_isPrefix_number scanner.cursor.rest
  have hleft : ∀ c ∈ scanner.cursor.rest.takeWhile Char.isDigit, c.isDigit = true :=
    fun _ => List.mem_takeWhile_imp
  have hahead : whole.current? = (scanner.cursor.rest.dropWhile Char.isDigit).head? := by
    rw [hdigits.current?, Cursor.current?, Cursor.rest_skipWhile]
  by_cases hpoint : whole.current? = some '.'
  -- the point and the digits behind it are passed as well
  · obtain ⟨rest, hbehind⟩ := List.head?_eq_some_iff.mp (hahead.symm.trans hpoint)
    obtain ⟨dot, hstep, hpassed⟩ := hdigits.advance
    obtain ⟨after, heatenMore, hfurther⟩ := hpassed.eatWhile Char.isDigit
    have hright : ∀ c ∈ rest.takeWhile Char.isDigit, c.isDigit = true :=
      fun _ => List.mem_takeWhile_imp
    have hliteral := Grammar.number_eq_real hbehind
    have hnext : (scanner.cursor.skipWhile Char.isDigit).advance.rest = rest := by
      show (scanner.cursor.skipWhile Char.isDigit).rest.drop 1 = rest
      rw [Cursor.rest_skipWhile, hbehind]
      rfl
    have hmoved : (scanner.cursor.skipWhile Char.isDigit).advance.skipWhile Char.isDigit
        = scanner.cursor.drop (Lexeme.number scanner.cursor.rest).text.length := by
      rw [Cursor.skipWhile, hnext, hliteral, Grammar.text_real]
      simp only [Cursor.skipWhile, Cursor.advance, Cursor.drop_drop, List.length_append,
        List.length_cons]
      congr 1
      omega
    rw [hmoved] at hfurther
    have htext := htracks.cursor.textFrom hfurther
    rw [← List.prefix_iff_eq_take.mp hinitial] at htext
    refine ⟨checked.moveTo after, ?_, htracks.moveTo hfurther⟩
    -- cut out of the text, the literal is still the same number
    have hagain : Lexeme.number (Lexeme.number scanner.cursor.rest).text
        = Lexeme.number scanner.cursor.rest := by
      rw [hliteral, Grammar.text_real, Grammar.number_of_real hleft hright]
    simp only [number?, heaten, hpoint, hstep, heatenMore, htext, hagain, Option.bind_eq_bind,
      Option.bind_some, if_true]
    rfl
  -- the digits are all
  · have hliteral := Grammar.number_eq_integer (hahead ▸ hpoint)
    have hmoved : scanner.cursor.skipWhile Char.isDigit
        = scanner.cursor.drop (Lexeme.number scanner.cursor.rest).text.length := by
      rw [Cursor.skipWhile, hliteral, Grammar.text_integer]
    rw [hmoved] at hdigits
    have htext := htracks.cursor.textFrom hdigits
    rw [← List.prefix_iff_eq_take.mp hinitial] at htext
    refine ⟨checked.moveTo whole, ?_, htracks.moveTo hdigits⟩
    have hagain : Lexeme.integer (Lexeme.number scanner.cursor.rest).text
        = Lexeme.number scanner.cursor.rest := by
      rw [hliteral, Grammar.text_integer]
    simp only [number?, heaten, htext, hagain, Option.bind_eq_bind, Option.bind_some, if_neg hpoint]
    rfl

/-- A mark of one character. -/
theorem Tracks.mark (htracks : checked.Tracks scanner) (kind : TokenKind) :
    Gives (checked.mark? kind) (scanner.take (.mark kind scanner.cursor.rest)) := by
  obtain ⟨after, hmoved, hfurther⟩ := htracks.advance
  refine ⟨after, ?_, ?_⟩
  · rw [mark?, hmoved]
    rfl
  · show after.Tracks (scanner.drop (scanner.cursor.rest.take 1).length)
    rw [Scanner.drop, Cursor.drop_length_take]
    exact hfurther

theorem Tracks.colon (htracks : checked.Tracks scanner) :
    Gives checked.colon? scanner.colon := by
  have hpeeked := htracks.cursor.peek
  show Gives checked.colon? (scanner.take (.colon scanner.cursor.rest))
  rw [Lexeme.colon_eq]
  by_cases hequals : scanner.cursor.rest.tail.head? = some '='
  -- two steps pass the assignment sign
  · obtain ⟨colon, hstep, hpassed⟩ := htracks.advance
    obtain ⟨after, hstepMore, hfurther⟩ := hpassed.advance
    rw [if_pos hequals]
    refine ⟨after, ?_, ?_⟩
    · simp only [colon?, mark?, hpeeked, Cursor.peek?, hequals, hstep, hstepMore,
        Option.bind_eq_bind, Option.bind_some, if_true]
      rfl
    · show after.Tracks (scanner.drop (scanner.cursor.rest.take 2).length)
      rw [Scanner.drop, Cursor.drop_length_take, ← Cursor.drop_drop scanner.cursor 1 1]
      exact hfurther
  · rw [if_neg hequals]
    have hfound : checked.colon? = checked.mark? .colon := by
      simp only [colon?, hpeeked, Cursor.peek?, Option.bind_eq_bind, Option.bind_some,
        if_neg hequals]
    rw [hfound]
    exact htracks.mark .colon

theorem Gives.map {α β : Type} {found : Option (α × CheckedScanner)} {outcome : Outcome α}
    {events : List Event} (hgives : Gives found outcome) (f : α → β) :
    Gives (found.map (Prod.map f id)) ⟨f outcome.result, events, outcome.scanner⟩ := by
  obtain ⟨after, rfl, htracks⟩ := hgives
  exact ⟨after, rfl, htracks⟩

/-- Behind the separators both scanners look at the same character and go the same way. -/
theorem Tracks.lexeme {marked : Scanner} {c : Char} {rest : List Char}
    (hskipped : scanner.skipSeparators.scanner = marked) (hahead : marked.cursor.rest = c :: rest)
    (htracks : checked.Tracks marked) : Gives (checked.lexeme? c) scanner.nextToken := by
  have hstart : marked.tokenStart = marked.cursor.location := hskipped ▸ rfl
  unfold lexeme? Scanner.nextToken
  simp only [hskipped, hahead, Lexeme.first?]
  -- the branches of both come in the same order
  by_cases hdigit : c.isDigit = true
  · simp only [if_pos hdigit]
    rw [← hahead]
    exact htracks.number.map _
  simp only [if_neg hdigit]
  by_cases hletter : c.isAlpha = true
  · simp only [if_pos hletter]
    rw [← hahead]
    exact htracks.word.map _
  simp only [if_neg hletter]
  by_cases hcolon : c = ':'
  · simp only [if_pos hcolon]
    rw [← hahead]
    exact htracks.colon.map _
  simp only [if_neg hcolon]
  cases hknown : TokenKind.ofMark? c with
  | some kind =>
    simp only [Option.map_some]
    rw [← hahead]
    exact (htracks.mark kind).map _
  | none =>
    -- both name the character and the bytes it takes from the start of the token on
    refine ⟨checked, ?_, htracks⟩
    simp only [Option.map_none, Span.upTo, htracks.tokenStart, htracks.tokenLine,
      htracks.tokenColumn]
    rw [Scanner.position, Cursor.position, ← hstart]

/-! ## §5 The next token -/

theorem Tracks.comment (htracks : checked.Tracks scanner) :
    ∃ after, checked.comment? = some after ∧
      after.Tracks scanner.advance.skipComment.scanner := by
  obtain ⟨opened, hstep, hpassed⟩ := htracks.advance
  obtain ⟨after, hmoved, hfurther⟩ := hpassed.skipComment
  exact ⟨after, by rw [comment?, hstep, Option.bind_some, hmoved], hfurther⟩

/-- What is read behind some separators is read before them. -/
theorem Gives.before {before behind : Scanner}
    {found : Option (Except LexicalError Token × CheckedScanner)}
    (hsame : behind.skipSeparators.scanner = before.skipSeparators.scanner)
    (hgives : Gives found behind.nextToken) : Gives found before.nextToken := by
  obtain ⟨hresult, hstate⟩ := Scanner.nextToken_congr hsame
  obtain ⟨after, rfl, htracks⟩ := hgives
  exact ⟨after, by rw [hresult], hstate ▸ htracks⟩

theorem Tracks.nextToken (htracks : checked.Tracks scanner) :
    Gives checked.nextToken? scanner.nextToken := by
  -- the loop of one scanner against the separators that the other splits off at once
  fun_induction nextToken? checked generalizing scanner with
  | case1 checked hgone =>
    rw [htracks.cursor.current?] at hgone
    have hended := List.head?_eq_none_iff.mp hgone
    have hmarked : scanner.skipSeparators.scanner = scanner.markStart :=
      Scanner.skipSeparators_of_stops (by simp [hended])
    refine ⟨checked.markStart, ?_, ?_⟩
    · unfold Scanner.nextToken
      simp only [hmarked, Scanner.markStart, hended]
    · unfold Scanner.nextToken
      simp only [hmarked, Scanner.markStart, hended]
      exact htracks.markStart
  -- skipping blanks cannot fail, as the track is kept
  | case2 checked c hthere hblank hstuck =>
    obtain ⟨after, hmoved, -⟩ := htracks.skipBlanks
    rw [hmoved] at hstuck
    cases hstuck
  | case3 checked c hthere hblank next hstep ih =>
    obtain ⟨after, hmoved, hkeeps⟩ := htracks.skipBlanks
    obtain rfl := Option.some.inj (hmoved.symm.trans hstep)
    exact (ih hkeeps).before (Scanner.skipSeparators_skipBlanks scanner)
  | case4 checked hstuck hthere hblank =>
    obtain ⟨after, hmoved, -⟩ := htracks.comment
    rw [hmoved] at hstuck
    cases hstuck
  | case5 checked next hstep hthere hblank ih =>
    rw [htracks.cursor.current?] at hthere
    obtain ⟨rest, hbrace⟩ := List.head?_eq_some_iff.mp hthere
    obtain ⟨after, hmoved, hkeeps⟩ := htracks.comment
    obtain rfl := Option.some.inj (hmoved.symm.trans hstep)
    exact (ih hkeeps).before (Scanner.skipSeparators_comment hbrace)
  | case6 checked c hthere hblank hbrace =>
    rw [htracks.cursor.current?] at hthere
    obtain ⟨rest, hahead⟩ := List.head?_eq_some_iff.mp hthere
    -- no separator begins here, so nothing is split off before the lexeme
    have hstops : ∀ d ∈ scanner.cursor.rest.head?, Separator.starts d = false := by
      rw [hahead]
      rintro d ⟨⟩
      simp [Separator.starts, hblank, hbrace]
    exact htracks.markStart.lexeme (Scanner.skipSeparators_of_stops hstops) hahead

theorem Tracks.finish (htracks : checked.Tracks scanner) :
    ({ checked with finished := true } : CheckedScanner).Tracks { scanner with finished := true } :=
  ⟨htracks.cursor, htracks.tokenStart, htracks.tokenLine, htracks.tokenColumn, rfl⟩

theorem Tracks.next (htracks : checked.Tracks scanner) : Gives checked.next? scanner.next? := by
  unfold next? Scanner.next?
  rw [htracks.finished]
  -- the flag is set for the end of input and for an error, and only then
  split
  · exact ⟨checked, rfl, htracks⟩
  · obtain ⟨after, hfound, hfurther⟩ := htracks.nextToken
    rw [hfound]
    dsimp only [Option.map_some]
    cases scanner.nextToken.result with
    | ok token =>
      dsimp only
      split
      · exact ⟨_, rfl, hfurther.finish⟩
      · exact ⟨after, rfl, hfurther⟩
    | error error => exact ⟨_, rfl, hfurther.finish⟩

/-! ## §6 Operations and runs -/

theorem Gives.map_snd {α : Type} {found : Option (α × CheckedScanner)} {outcome : Outcome α}
    (hgives : Gives found outcome) :
    ∃ after, found.map Prod.snd = some after ∧ after.Tracks outcome.scanner := by
  obtain ⟨after, rfl, htracks⟩ := hgives
  exact ⟨after, rfl, htracks⟩

/-- **No operation fails**, and none leaves the track. -/
theorem Tracks.after (htracks : checked.Tracks scanner) (operation : Operation) :
    ∃ after, checked.after? operation = some after ∧ after.Tracks (scanner.after operation) := by
  cases operation with
  | nextToken => exact htracks.nextToken.map_snd
  | next => exact htracks.next.map_snd
  | number => exact htracks.number.map_snd
  | word => exact htracks.word.map_snd
  | colon => exact htracks.colon.map_snd
  | advance => exact htracks.advance
  | skipBlanks => exact htracks.skipBlanks
  | skipComment => exact htracks.skipComment

/-- **No run fails**, and none leaves the track. -/
theorem Tracks.run (htracks : checked.Tracks scanner) (operations : List Operation) :
    ∃ after, checked.run? operations = some after ∧ after.Tracks (scanner.run operations) := by
  induction operations generalizing checked scanner with
  | nil => exact ⟨checked, rfl, htracks⟩
  | cons operation operations ih =>
    obtain ⟨next, hstep, hkeeps⟩ := htracks.after operation
    obtain ⟨after, hrest, hfurther⟩ := ih hkeeps
    refine ⟨after, ?_, hfurther⟩
    rw [run?, List.foldlM_cons, hstep]
    exact hrest

/-- From the start of a short text every run can be followed. -/
theorem exists_tracks_run {source : List Char} (hshort : source.length + 1 < UInt32.size)
    (operations : List Operation) :
    ∃ after, (start source).run? operations = some after ∧
      after.Tracks ((Scanner.start source).run operations) :=
  (tracks_start hshort).run operations

end CheckedScanner

end MiniPascal
