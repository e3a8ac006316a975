import MiniPascal.Proofs.Dump.Writers
import MiniPascal.Proofs.Scan.Iteration
import MiniPascal.Proofs.Scan.Moving
import MiniPascal.Proofs.Scan.Soundness

/-!
# Every Call Comes to an End

Loops are nested in each other when a program is read: over the characters of a run, over
the runs and comments between two tokens, and over the tokens.  Here each of them is a loop
of rounds, and none has more rounds than there are characters left to read.

- `loops_passSeparators`: the loop between two tokens;
- `ends_nextToken`: the three ways in which a call can end, two of them for good;
- `loops_readOn`, `loops_iterateOn`: the loops over the tokens of a program;
- `progress_run`: all of this wherever a scanner stands.
-/

namespace MiniPascal

open Grammar

namespace Scanner

variable {scanner next last : Scanner} {source marked token : List Char} {n : Nat}

/-! ## §1 Between two tokens -/

/-- One round of the loop between two tokens: blanks are passed, or a comment. -/
def passSeparators? (scanner : Scanner) : Option Scanner :=
  scanner.cursor.current?.bind fun c =>
    if isBlank c then some scanner.skipBlanks
    else if c = '\x7b' then some scanner.advance.skipComment.scanner
    else none

/-- What a round can pass. -/
theorem passSeparators?_cases (hgoes : scanner.passSeparators? = some next) :
    (∃ c rest, scanner.cursor.rest = c :: rest ∧ isBlank c = true ∧ next = scanner.skipBlanks) ∨
      ∃ rest, scanner.cursor.rest = '\x7b' :: rest ∧
        next = scanner.advance.skipComment.scanner := by
  obtain ⟨c, hhere, hgoes⟩ := Option.bind_eq_some_iff.mp hgoes
  obtain ⟨rest, hahead⟩ := List.head?_eq_some_iff.mp hhere
  split at hgoes
  · rename_i hblank
    exact .inl ⟨c, rest, hahead, hblank, (Option.some.inj hgoes).symm⟩
  · split at hgoes
    · rename_i hbrace
      exact .inr ⟨rest, hbrace ▸ hahead, (Option.some.inj hgoes).symm⟩
    · cases hgoes

/-- The loop stops where no separator begins. -/
theorem not_starts_of_passSeparators? (hstops : scanner.passSeparators? = none) :
    ∀ c ∈ scanner.cursor.rest.head?, Separator.starts c = false := by
  intro c hhere
  have hthere : scanner.cursor.current? = some c := hhere
  rw [passSeparators?, hthere, Option.bind_some] at hstops
  split at hstops
  · cases hstops
  · split at hstops
    · cases hstops
    · rename_i hblank hbrace
      simp [Separator.starts, hblank, hbrace]

theorem remaining_lt_of_passSeparators? (hgoes : scanner.passSeparators? = some next) :
    next.remaining < scanner.remaining := by
  rcases passSeparators?_cases hgoes with ⟨c, rest, hahead, hblank, rfl⟩ | ⟨rest, hahead, rfl⟩
  · -- a run of blanks has at least the blank that begins it
    show (scanner.drop (scanner.cursor.rest.takeWhile isBlank).length).remaining < _
    rw [remaining_drop, remaining, hahead, List.takeWhile_cons_of_pos hblank]
    simp only [List.length_cons]
    omega
  · -- a comment has at least its brace
    show (scanner.advance.drop _).remaining < _
    rw [remaining_drop, advance, remaining_drop, remaining, hahead, List.length_cons]
    omega

/-- All separators are passed where the loop stops. -/
theorem skipSeparators_of_loops (hloops : Loops passSeparators? n scanner last) :
    scanner.skipSeparators.scanner = last.markStart := by
  -- what follows all separators is the same before and behind each round
  induction hloops with
  | stop hstops =>
    exact skipSeparators_of_stops (not_starts_of_passSeparators? hstops)
  | again hgoes _ ih =>
    rw [← ih]
    rcases passSeparators?_cases hgoes with ⟨c, rest, -, -, rfl⟩ | ⟨rest, hbrace, rfl⟩
    · exact (skipSeparators_skipBlanks _).symm
    · exact (skipSeparators_comment hbrace).symm

/-- **Between two tokens** a loop passes blanks and comments one after the other. -/
theorem loops_passSeparators (scanner : Scanner) :
    ∃ n last, Loops passSeparators? n scanner last ∧ n ≤ scanner.remaining ∧
      scanner.skipSeparators.scanner = last.markStart := by
  obtain ⟨n, last, hloops, hbound⟩ :=
    exists_loops remaining (fun _ _ => remaining_lt_of_passSeparators?) scanner
  exact ⟨n, last, hloops, hbound, skipSeparators_of_loops hloops⟩

/-! ## §2 One call -/

/-- Asked for the next token once more, and as often as one likes, the scanner gives `result`
and stays as it is. -/
def Settles (scanner : Scanner) (result : Except LexicalError Token) : Prop :=
  ∀ n, let later := scanner.run (List.replicate n .nextToken)
    later.nextToken.result = result ∧ later = scanner

/-- A scanner that stays as it is once stays so for good. -/
theorem settles_of_stays {result : Except LexicalError Token}
    (hfound : scanner.nextToken.result = result) (hstays : scanner.nextToken.scanner = scanner) :
    scanner.Settles result := by
  intro n later
  have hsame : later = scanner := by
    induction n with
    | zero => rfl
    | succ n ih =>
      show scanner.nextToken.scanner.run _ = scanner
      rw [hstays]
      exact ih
  rw [hsame]
  exact ⟨hfound, rfl⟩

/-- The character before a scanner takes the bytes from its place on. -/
theorem Stands.slice_current {c : Char} {rest : List Char}
    (hstands : Stands source marked token scanner) (hahead : scanner.cursor.rest = c :: rest) :
    sliceBytes? scanner.position (scanner.position + c.utf8Size) source = some [c] := by
  have hwhole := hstands.whole
  rw [hahead] at hwhole
  rw [hstands.position_eq]
  refine sliceBytes?_eq_some_iff.mpr ⟨marked ++ token, rest, hwhole, rfl, ?_⟩
  rw [byteLength_append _ [c]]
  rfl

/-- **How a call for the next token can end** in a program. -/
inductive Ends (source : List Char) (scanner : Scanner) :
    Except LexicalError Token → Scanner → Prop where
  /-- There is a token, and the scanner has moved forward. -/
  | token {token : Token} {later : Scanner} (hinside : token.kind ≠ .endOfInput)
      (hforward : scanner.position < later.position) : Ends source scanner (.ok token) later
  /-- All of the program has been passed. -/
  | endOfInput {later : Scanner} (hlast : later.position = byteLength source)
      (hsettles : later.Settles (.ok .endOfInput)) : Ends source scanner (.ok .endOfInput) later
  /-- The scanner stands on a stray character, whose bytes are the span of the error. -/
  | error {error : LexicalError} {later : Scanner} (hstray : IsStray error.character)
      (hhere : later.cursor.current? = some error.character)
      (hstart : error.span.start = later.position)
      (hcovers : sliceBytes? error.span.start error.span.stop source = some [error.character])
      (hsettles : later.Settles (.error error)) : Ends source scanner (.error error) later

/-- **A call ends** in one of these ways. -/
theorem ends_nextToken (hstands : Stands source marked token scanner) :
    Ends source scanner scanner.nextToken.result scanner.nextToken.scanner := by
  have hfinds := finds_nextToken scanner
  generalize scanner.nextToken.result = result, scanner.nextToken.scanner = later at hfinds ⊢
  cases hfinds with
  | endOfInput =>
    have hwhole : scanner.cursor.rest = scanner.cursor.rest ++ ([] ++ []) :=
      (List.append_nil _).symm
    have hthere := hstands.behind hwhole
    -- nothing is left, so the end is found again at once
    have hended : IsLastGap (scanner.behind scanner.cursor.rest [] []).cursor.rest := .closed .nil
    obtain ⟨hfound, hstays⟩ := nextToken_of_lastGap hended
    refine .endOfInput (hthere.position_of_end rfl) (settles_of_stays hfound ?_)
    rw [hstays]
    simp [behind]
  | @token gap lexeme rest _ hbefore hlongest hwhole hdenotes =>
    -- a lexeme has a character, and every character takes a byte
    refine .token hdenotes.kind_ne_endOfInput ?_
    have hinside := byteLength_pos hlongest.isLexeme.ne_nil
    show scanner.cursor.location.offset < (scanner.cursor.location.advance (gap ++ lexeme)).offset
    rw [Location.advance_offset, byteLength_append]
    omega
  | @stray gap rest c hbefore hstray hwhole =>
    have hparts : scanner.cursor.rest = gap ++ ([] ++ c :: rest) := hwhole
    have hthere := hstands.behind hparts
    have hahead : (scanner.behind gap [] (c :: rest)).cursor.rest = [] ++ c :: rest := rfl
    obtain ⟨hfound, hstays⟩ := nextToken_of_stray .nil hstray hahead
    -- nothing is passed behind the gap, so the token begins where the scanner stands
    have hplace : (scanner.cursor.location.advance gap).offset
        = (scanner.behind gap [] (c :: rest)).position := by
      show _ = (scanner.cursor.location.advance (gap ++ [])).offset
      rw [List.append_nil]
    refine .error hstray rfl hplace ?_ (settles_of_stays ?_ ?_)
    · show sliceBytes? (scanner.cursor.location.advance gap).offset
        ((scanner.cursor.location.advance gap).offset + c.utf8Size) source = some [c]
      rw [hplace]
      exact hthere.slice_current hahead
    · rw [hfound]
      simp [behind]
    · rw [hstays]
      simp [behind]

/-! ## §3 All tokens -/

/-- One round of a reading: a token that the end of input is not. -/
def readOn? (scanner : Scanner) : Option Scanner :=
  match scanner.nextToken.result with
  | .ok token => if token.kind = .endOfInput then none else some scanner.nextToken.scanner
  | .error _ => none

theorem readOn?_eq_some_iff :
    scanner.readOn? = some next ↔ ∃ token, scanner.nextToken.result = .ok token ∧
      token.kind ≠ .endOfInput ∧ scanner.nextToken.scanner = next := by
  unfold readOn?
  cases hresult : scanner.nextToken.result with
  | error error => simp
  | ok token => by_cases hinside : token.kind = .endOfInput <;> simp [hinside]

theorem remaining_lt_of_readOn? (hgoes : scanner.readOn? = some next) :
    next.remaining < scanner.remaining := by
  obtain ⟨token, hfound, hinside, rfl⟩ := readOn?_eq_some_iff.mp hgoes
  exact remaining_nextToken_lt hfound hinside

/-- A reading has one answer for each round and a last one, which is the end of input or the
error, and leaves the scanner where this one was found. -/
theorem readAll_of_loops (hloops : Loops readOn? n scanner last) :
    scanner.readAll.stream.length = n + 1 ∧
      scanner.readAll.scanner = last.nextToken.scanner := by
  induction hloops with
  | @stop last hstops =>
    rcases nextToken_cases last with hresult | ⟨error, hresult⟩ | ⟨token, hresult, hinside⟩
    · rw [readAll_of_endOfInput hresult]
      exact ⟨rfl, rfl⟩
    · rw [readAll_of_error hresult]
      exact ⟨rfl, rfl⟩
    · -- behind any other token there is one more round
      rw [readOn?_eq_some_iff.mpr ⟨token, hresult, hinside, rfl⟩] at hstops
      cases hstops
  | again hgoes _ ih =>
    obtain ⟨hanswers, hafter⟩ := ih
    obtain ⟨token, hfound, hinside, rfl⟩ := readOn?_eq_some_iff.mp hgoes
    rw [readAll_of_token hfound hinside]
    exact ⟨congrArg Nat.succ hanswers, hafter⟩

/-- **A reading** has no more rounds than there are characters. -/
theorem loops_readOn (scanner : Scanner) :
    ∃ n last, Loops readOn? n scanner last ∧ n ≤ scanner.remaining ∧
      scanner.readAll.stream.length = n + 1 ∧
      scanner.readAll.scanner = last.nextToken.scanner := by
  obtain ⟨n, last, hloops, hbound⟩ :=
    exists_loops remaining (fun _ _ => remaining_lt_of_readOn?) scanner
  exact ⟨n, last, hloops, hbound, readAll_of_loops hloops⟩

/-- A dump leaves the scanner where a reading leaves it. -/
theorem scanner_write (format : DumpFormat) (positions : Bool) (scanner : Scanner) :
    (TokenDump.write format positions scanner).scanner = scanner.readAll.scanner := by
  cases format with
  | text =>
    show (TokenDump.text positions scanner).scanner = _
    rw [TokenDump.text_eq]
  | json => rfl

/-! ## §4 All items -/

/-- One round of an iteration: an item. -/
def iterateOn? (scanner : Scanner) : Option Scanner :=
  scanner.next?.result.map fun _ => scanner.next?.scanner

/-- The number of characters that an iteration may still look at. -/
def itemsLeft (scanner : Scanner) : Nat :=
  if scanner.finished then 0 else scanner.remaining

/-- An item leaves less to look at: a token is passed, and an error is the last item, with
the character that it names still there. -/
theorem itemsLeft_lt_of_iterateOn? (hgoes : scanner.iterateOn? = some next) :
    next.itemsLeft < scanner.itemsLeft := by
  obtain ⟨item, hfound, rfl⟩ := Option.map_eq_some_iff.mp hgoes
  cases hrunning : scanner.finished with
  | true =>
    rw [next?_of_finished hrunning] at hfound
    cases hfound
  | false =>
    rcases nextToken_cases scanner with hresult | ⟨error, hresult⟩ | ⟨token, hresult, hinside⟩
    · -- the end of input is no item
      rw [next?_of_endOfInput hrunning hresult] at hfound
      cases hfound
    · -- the flag leaves nothing to look at, though the character is still there
      rw [next?_of_error hrunning hresult]
      obtain ⟨_, -, hfinds⟩ := exists_finds hresult
      cases hfinds with
      | stray hbefore hstray hwhole =>
        simp [itemsLeft, hrunning, remaining, hwhole]
    · have hkept := (finished_nextToken scanner).trans hrunning
      have hshorter := remaining_nextToken_lt hresult hinside
      rw [next?_of_token hrunning hresult hinside]
      simpa [itemsLeft, hrunning, hkept] using hshorter

/-- An iteration has one item for each round. -/
theorem items_of_loops (hloops : Loops iterateOn? n scanner last) :
    scanner.items.result.length = n ∧ scanner.items.scanner = last.next?.scanner := by
  induction hloops with
  | stop hstops =>
    rw [items_of_none (Option.map_eq_none_iff.mp hstops)]
    exact ⟨rfl, rfl⟩
  | again hgoes _ ih =>
    obtain ⟨hitems, hafter⟩ := ih
    obtain ⟨item, hfound, rfl⟩ := Option.map_eq_some_iff.mp hgoes
    rw [items_of_some hfound]
    exact ⟨congrArg Nat.succ hitems, hafter⟩

/-- **An iteration** has no more rounds than there are characters to look at. -/
theorem loops_iterateOn (scanner : Scanner) :
    ∃ n last, Loops iterateOn? n scanner last ∧ n ≤ scanner.itemsLeft ∧
      scanner.items.result.length = n ∧ scanner.items.scanner = last.next?.scanner := by
  obtain ⟨n, last, hloops, hbound⟩ :=
    exists_loops itemsLeft (fun _ _ => itemsLeft_lt_of_iterateOn?) scanner
  exact ⟨n, last, hloops, hbound, items_of_loops hloops⟩

/-- The items are tokens, and behind them an error if there is one. -/
theorem exists_items (scanner : Scanner) :
    ∃ (tokens : List Token) (error? : Option LexicalError),
      (∀ token ∈ tokens, token.kind ≠ .endOfInput) ∧
      scanner.items.result = tokens.map .ok ++ (error?.map .error).toList := by
  cases hrunning : scanner.finished with
  | true =>
    have hended : scanner.next?.result = none := by rw [next?_of_finished hrunning]
    exact ⟨[], none, List.forall_mem_nil _, by rw [items_of_none hended]; rfl⟩
  | false =>
    obtain ⟨hanswers, -, -⟩ := items_eq scanner hrunning
    obtain ⟨tokens, hdenoted, hread⟩ := tokens_readAll scanner
    refine ⟨tokens, scanner.readAll.error?, ?_, ?_⟩
    · intro token hinside
      obtain ⟨lexeme, hdenotes⟩ := hdenoted token hinside
      exact hdenotes.kind_ne_endOfInput
    · -- the stream of a reading is the items and, without an error, the end of input
      have hstream : scanner.readAll.stream
          = (scanner.readAll.tokens.map PlacedToken.token).map .ok
            ++ (scanner.readAll.error?.map .error).toList := by
        rw [List.map_map]
        rfl
      rw [hstream, hread] at hanswers
      cases hended : scanner.readAll.error? with
      | none => simpa [hended] using hanswers
      | some error => simpa [hended] using hanswers

/-! ## §5 Every state -/

/-- **Every call comes to an end**, wherever a scanner stands.  No loop has more rounds than
there are characters left: not one over a run, nor the one between two tokens, nor those of a
reading, of a dump and of an iteration.  A call for the next token gives a token and moves
forward, or it finds the end of the program or a stray character, and so does every call after
it.  An iteration gives tokens and at most one error, together no more than there are
characters.  A scanner by offsets, which goes round one character after the other, gets the same
answer if its counters are large enough. -/
theorem progress_run (source : List Char) (operations : List Operation) :
    let here := (start source).run operations
    here.remaining ≤ source.length ∧
    (∀ p, ∃ n, Loops (Cursor.pass? p) n here.cursor (here.cursor.skipWhile p) ∧
      n ≤ here.remaining) ∧
    (∃ n behind, Loops passSeparators? n here behind ∧ n ≤ here.remaining ∧
      here.skipSeparators.scanner = behind.markStart) ∧
    Ends source here here.nextToken.result here.nextToken.scanner ∧
    (∃ n last, Loops readOn? n here last ∧ n ≤ here.remaining ∧
      here.readAll.stream.length = n + 1 ∧
      here.readAll.scanner = last.nextToken.scanner ∧
      ∀ format positions,
        (TokenDump.write format positions here).scanner = last.nextToken.scanner) ∧
    (∃ n last, Loops iterateOn? n here last ∧ n ≤ here.remaining ∧
      here.items.result.length = n ∧ here.items.scanner = last.next?.scanner ∧
      ∃ (tokens : List Token) (error? : Option LexicalError),
        (∀ token ∈ tokens, token.kind ≠ .endOfInput) ∧
        here.items.result = tokens.map .ok ++ (error?.map .error).toList) ∧
    (source.length < UInt32.size - 1 →
      ∃ checked after, (CheckedScanner.start source).run? operations = some checked ∧
        checked.nextToken? = some (here.nextToken.result, after) ∧
        after.Shows here.nextToken.scanner) := by
  intro here
  obtain ⟨marked, token, hstands⟩ := exists_stands_run source operations
  -- each bound is one on what is left to read, wherever the operations have led
  refine ⟨?_, ?_, loops_passSeparators here, ends_nextToken hstands, ?_, ?_, ?_⟩
  · have hsize := congrArg List.length hstands.whole
    rw [List.length_append] at hsize
    show ((start source).run operations).cursor.rest.length ≤ _
    omega
  · intro p
    exact ⟨_, Cursor.loops_skipWhile p here.cursor, (List.takeWhile_prefix p).length_le⟩
  · obtain ⟨n, last, hloops, hbound, hanswers, hafter⟩ := loops_readOn here
    refine ⟨n, last, hloops, hbound, hanswers, hafter, ?_⟩
    intro format positions
    rw [scanner_write, hafter]
  · obtain ⟨n, last, hloops, hbound, hitems, hafter⟩ := loops_iterateOn here
    refine ⟨n, last, hloops, Nat.le_trans hbound ?_, hitems, hafter, exists_items here⟩
    -- an iteration that has ended looks at nothing any more
    unfold itemsLeft
    split
    · exact Nat.zero_le _
    · exact Nat.le_refl _
  · intro hshort
    have hroom : source.length + 1 < UInt32.size := by omega
    obtain ⟨checked, hmoved, htracks⟩ := CheckedScanner.exists_tracks_run hroom operations
    obtain ⟨after, hfound, hlast⟩ := htracks.nextToken
    exact ⟨checked, after, hmoved, hfound, hlast.shows⟩

/-- Behind a stray character that was passed by hand, a comment that is never closed ends the
program. -/
theorem progress_run_unclosed :
    let here := (start "?\x7b é".toList).run [.nextToken, .advance]
    here.nextToken.result = .ok .endOfInput ∧
      Ends "?\x7b é".toList here (.ok .endOfInput) here.nextToken.scanner ∧
      ∃ checked after,
        (CheckedScanner.start "?\x7b é".toList).run? [.nextToken, .advance] = some checked ∧
        checked.nextToken? = some (.ok .endOfInput, after) ∧
        after.Shows here.nextToken.scanner := by
  intro here
  have hfound : here.nextToken.result = .ok .endOfInput := by decide +kernel
  obtain ⟨-, -, -, hends, -, -, hchecked⟩ := progress_run "?\x7b é".toList [.nextToken, .advance]
  have hchecked := hchecked (by decide)
  rw [hfound] at hends hchecked
  exact ⟨hfound, hends, hchecked⟩

end Scanner

end MiniPascal
