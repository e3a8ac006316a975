import MiniPascal.Proofs.Scan.Operation

/-!
# Scanning by Byte Offsets

A `Scanner` carries the rest of its text along.  The scanner of this module carries an
offset in bytes, the character that stands there, and a line and a column in 32 bits; for
all else it cuts its text.  Two things can go wrong in it, and both give `none`:

- a cut that is off the character boundaries, or backwards;
- a counter that is at its end and has to go on.

Its loops are those of a machine: one character, one run of blanks or one comment at a
time.  They end because no step goes back and none but the last leaves the place as it is.
-/

namespace MiniPascal

/-! ## §1 Cursors -/

/-- The next number of 32 bits, if there is one. -/
def succ? (n : UInt32) : Option UInt32 :=
  if n.toNat + 1 < UInt32.size then some (n + 1) else none

/-- A place in a text, by its offset. -/
structure CheckedCursor where
  /-- The whole text. -/
  source : List Char
  /-- The number of bytes before the place. -/
  position : Nat
  /-- The character at the place. -/
  current? : Option Char
  line : UInt32
  column : UInt32

namespace CheckedCursor

/-- The cursor at the start of a text. -/
def start (source : List Char) : CheckedCursor := ⟨source, 0, source.head?, 1, 1⟩

/-- The character after the current one. -/
def peek? (cursor : CheckedCursor) : Option (Option Char) :=
  (dropBytes? cursor.position cursor.source).map fun rest => rest.tail.head?

/-- The text between `start` and the cursor. -/
def textFrom? (cursor : CheckedCursor) (start : Nat) : Option (List Char) :=
  sliceBytes? start cursor.position cursor.source

/-- Line and column behind the character `c`. -/
def count? (cursor : CheckedCursor) (c : Char) : Option (UInt32 × UInt32) :=
  if c = '\n' then (succ? cursor.line).map fun line => (line, 1)
  else (succ? cursor.column).map fun column => (cursor.line, column)

/-- Moves over one character, and stays at the end of the text. -/
def advance? (cursor : CheckedCursor) : Option CheckedCursor :=
  match cursor.current? with
  | none => some cursor
  | some c =>
    (cursor.count? c).bind fun (line, column) =>
      (dropBytes? (cursor.position + c.utf8Size) cursor.source).map fun rest =>
        ⟨cursor.source, cursor.position + c.utf8Size, rest.head?, line, column⟩

/-- The number of bytes from the place on. -/
def remaining (cursor : CheckedCursor) : Nat := byteLength cursor.source - cursor.position

variable {cursor next : CheckedCursor} {c : Char} {p : Char → Bool}

/-- A step over a character goes forward, inside the text. -/
theorem remaining_lt_of_advance? (hhere : cursor.current? = some c)
    (hmoved : cursor.advance? = some next) : next.remaining < cursor.remaining := by
  simp only [advance?, hhere, Option.bind_eq_some_iff, Option.map_eq_some_iff] at hmoved
  obtain ⟨counters, -, rest, hcut, rfl⟩ := hmoved
  -- the cut behind the character was made, so its bytes are bytes of the text
  have hinside := byteLength_of_dropBytes? hcut
  have := c.utf8Size_pos
  simp only [remaining]
  omega

theorem remaining_le_of_advance? (hmoved : cursor.advance? = some next) :
    next.remaining ≤ cursor.remaining := by
  cases hhere : cursor.current? with
  | none =>
    -- at the end the cursor stays where it is
    simp only [advance?, hhere, Option.some.injEq] at hmoved
    rw [hmoved]
  | some c => exact Nat.le_of_lt (remaining_lt_of_advance? hhere hmoved)

/-- Moves on for as long as the character there satisfies `p`. -/
def eatWhile? (cursor : CheckedCursor) (p : Char → Bool) : Option CheckedCursor :=
  match _hhere : cursor.current? with
  | none => some cursor
  | some c =>
    if p c then
      -- the step is matched with its equation, which is what termination rests on
      match _hmoved : cursor.advance? with
      | none => none
      | some next => next.eatWhile? p
    else some cursor
termination_by cursor.remaining
decreasing_by exact remaining_lt_of_advance? _hhere _hmoved

/-- The loop goes round once more where the character satisfies `p`. -/
theorem eatWhile?_of_pos (hhere : cursor.current? = some c) (hc : p c = true) :
    cursor.eatWhile? p = cursor.advance?.bind fun next => next.eatWhile? p := by
  rw [eatWhile?]
  -- the match on the character is decided by `hhere`, the one on the step is the bind
  split
  · rename_i hnone
    rw [hhere] at hnone
    cases hnone
  · rename_i d hsome
    rw [hhere] at hsome
    obtain rfl := Option.some.inj hsome
    rw [if_pos hc]
    split <;> rename_i hmoved <;> rw [hmoved] <;> rfl

theorem remaining_le_of_eatWhile? (hmoved : cursor.eatWhile? p = some next) :
    next.remaining ≤ cursor.remaining := by
  -- the cases are the end of the text, a step that fails, a step, and a character to stop at
  fun_induction eatWhile? cursor p with
  | case1 cursor hhere =>
    obtain rfl := Option.some.inj hmoved
    exact Nat.le_refl _
  | case2 cursor c hhere hc hstuck => cases hmoved
  | case3 cursor c hhere hc after hstep ih =>
    exact Nat.le_trans (ih hmoved) (remaining_le_of_advance? hstep)
  | case4 cursor c hhere hc =>
    obtain rfl := Option.some.inj hmoved
    exact Nat.le_refl _

theorem remaining_lt_of_eatWhile? (hhere : cursor.current? = some c) (hc : p c = true)
    (hmoved : cursor.eatWhile? p = some next) : next.remaining < cursor.remaining := by
  -- the first step goes forward, and the others at least not back
  rw [eatWhile?_of_pos hhere hc] at hmoved
  obtain ⟨after, hstep, hrest⟩ := Option.bind_eq_some_iff.mp hmoved
  exact Nat.lt_of_le_of_lt (remaining_le_of_eatWhile? hrest) (remaining_lt_of_advance? hhere hstep)

end CheckedCursor

/-! ## §2 Scanners -/

/-- The state of a scan by offsets. -/
structure CheckedScanner where
  cursor : CheckedCursor
  /-- The offset at which the last token began, -/
  tokenStart : Nat
  /-- its line -/
  tokenLine : UInt32
  /-- and its column. -/
  tokenColumn : UInt32
  /-- Whether iteration has come to an end. -/
  finished : Bool

namespace CheckedScanner

/-- The scanner at the start of a text. -/
def start (source : List Char) : CheckedScanner := ⟨.start source, 0, 1, 1, false⟩

/-- The span from the start of the last token to the place reached. -/
def tokenSpan (scanner : CheckedScanner) : Span :=
  ⟨scanner.tokenStart, scanner.cursor.position, scanner.tokenLine.toNat,
    scanner.tokenColumn.toNat⟩

/-- Takes the present place as the start of the token. -/
def markStart (scanner : CheckedScanner) : CheckedScanner :=
  { scanner with
    tokenStart := scanner.cursor.position
    tokenLine := scanner.cursor.line
    tokenColumn := scanner.cursor.column }

/-- The scanner with its cursor at another place. -/
def moveTo (scanner : CheckedScanner) (cursor : CheckedCursor) : CheckedScanner :=
  { scanner with cursor }

/-- Moves over one character. -/
def advance? (scanner : CheckedScanner) : Option CheckedScanner :=
  scanner.cursor.advance?.map scanner.moveTo

/-- Moves over blanks. -/
def skipBlanks? (scanner : CheckedScanner) : Option CheckedScanner :=
  (scanner.cursor.eatWhile? isBlank).map scanner.moveTo

/-- Moves over the body of a comment, and over its closing brace if there is one. -/
def skipComment? (scanner : CheckedScanner) : Option CheckedScanner := do
  let cursor ← scanner.cursor.eatWhile? (· ≠ '\x7d')
  -- the loop stops at a brace or at the end, where there is nothing to move over
  if cursor.current? = none then some (scanner.moveTo cursor)
  else (scanner.moveTo cursor).advance?

/-- Reads a number here.  Its text is cut out once its end is known. -/
def number? (scanner : CheckedScanner) : Option (Token × CheckedScanner) := do
  let whole ← scanner.cursor.eatWhile? Char.isDigit
  -- the point belongs to the number, whether or not a digit follows it
  if whole.current? = some '.' then
    let point ← whole.advance?
    let cursor ← point.eatWhile? Char.isDigit
    let text ← cursor.textFrom? scanner.cursor.position
    some ((Lexeme.number text).token, scanner.moveTo cursor)
  else
    let text ← whole.textFrom? scanner.cursor.position
    some ((Lexeme.integer text).token, scanner.moveTo whole)

/-- Reads a word here. -/
def word? (scanner : CheckedScanner) : Option (Token × CheckedScanner) := do
  let cursor ← scanner.cursor.eatWhile? Char.isAlphanum
  let text ← cursor.textFrom? scanner.cursor.position
  some (Token.ofWord (String.ofList text), scanner.moveTo cursor)

/-- Reads a mark of one character here. -/
def mark? (scanner : CheckedScanner) (kind : TokenKind) : Option (Token × CheckedScanner) := do
  let after ← scanner.advance?
  some (Token.mark kind, after)

/-- Reads a colon or an assignment sign here. -/
def colon? (scanner : CheckedScanner) : Option (Token × CheckedScanner) := do
  let peeked ← scanner.cursor.peek?
  if peeked = some '=' then
    let colon ← scanner.advance?
    colon.mark? .assign
  else scanner.mark? .colon

/-- Reads the lexeme that begins with `c`, which stands here. -/
def lexeme? (scanner : CheckedScanner) (c : Char) :
    Option (Except LexicalError Token × CheckedScanner) :=
  if c.isDigit then scanner.number?.map (Prod.map .ok id)
  else if c.isAlpha then scanner.word?.map (Prod.map .ok id)
  else if c = ':' then scanner.colon?.map (Prod.map .ok id)
  else
    match TokenKind.ofMark? c with
    | some kind => (scanner.mark? kind).map (Prod.map .ok id)
    | none =>
      -- an error is placed by its own character, which is not passed
      let span : Span :=
        ⟨scanner.tokenStart, scanner.tokenStart + c.utf8Size, scanner.tokenLine.toNat,
          scanner.tokenColumn.toNat⟩
      some (.error ⟨c, span⟩, scanner)

/-! ## §3 The next token -/

variable {scanner next : CheckedScanner} {c : Char}

theorem remaining_lt_of_skipBlanks? (hhere : scanner.cursor.current? = some c)
    (hblank : isBlank c = true) (hmoved : scanner.skipBlanks? = some next) :
    next.cursor.remaining < scanner.cursor.remaining := by
  obtain ⟨cursor, heaten, rfl⟩ := Option.map_eq_some_iff.mp hmoved
  exact CheckedCursor.remaining_lt_of_eatWhile? hhere hblank heaten

theorem remaining_le_of_skipComment? (hmoved : scanner.skipComment? = some next) :
    next.cursor.remaining ≤ scanner.cursor.remaining := by
  -- the body is passed, and then one brace at most
  obtain ⟨cursor, heaten, hclosed⟩ := Option.bind_eq_some_iff.mp hmoved
  have := CheckedCursor.remaining_le_of_eatWhile? heaten
  split at hclosed
  · obtain rfl := Option.some.inj hclosed
    exact this
  · obtain ⟨after, hstep, rfl⟩ := Option.map_eq_some_iff.mp hclosed
    exact Nat.le_trans (CheckedCursor.remaining_le_of_advance? hstep) this

/-- Moves over a whole comment: the brace that stands here, the body and the closing
brace. -/
def comment? (scanner : CheckedScanner) : Option CheckedScanner :=
  scanner.advance?.bind skipComment?

theorem remaining_lt_of_comment? (hhere : scanner.cursor.current? = some c)
    (hmoved : scanner.comment? = some next) :
    next.cursor.remaining < scanner.cursor.remaining := by
  -- the opening brace is a step forward, whatever there is of a body
  obtain ⟨opened, hbrace, hbody⟩ := Option.bind_eq_some_iff.mp hmoved
  obtain ⟨cursor, hstep, rfl⟩ := Option.map_eq_some_iff.mp hbrace
  have := CheckedCursor.remaining_lt_of_advance? hhere hstep
  exact Nat.lt_of_le_of_lt (remaining_le_of_skipComment? hbody) this

/-- **The next token.**  Runs of blanks and comments are passed until something else
stands here, and there the token is marked. -/
def nextToken? (scanner : CheckedScanner) : Option (Except LexicalError Token × CheckedScanner) :=
  match _hhere : scanner.cursor.current? with
  | none => some (.ok .endOfInput, scanner.markStart)
  | some c =>
    -- a separator is passed and the search goes on behind it
    if _hblank : isBlank c = true then
      match _hmoved : scanner.skipBlanks? with
      | none => none
      | some next => next.nextToken?
    else if c = '\x7b' then
      match _hmoved : scanner.comment? with
      | none => none
      | some next => next.nextToken?
    else scanner.markStart.lexeme? c
termination_by scanner.cursor.remaining
decreasing_by
  · exact remaining_lt_of_skipBlanks? _hhere _hblank _hmoved
  · exact remaining_lt_of_comment? _hhere _hmoved

/-- **The next item of an iteration.** -/
def next? (scanner : CheckedScanner) :
    Option (Option (Except LexicalError Token) × CheckedScanner) :=
  if scanner.finished then some (none, scanner)
  else
    scanner.nextToken?.map fun (result, after) =>
      match result with
      | .ok token =>
          if token.kind = .endOfInput then (none, { after with finished := true })
          else (some (.ok token), after)
      | .error error => (some (.error error), { after with finished := true })

/-! ## §4 Operations and runs -/

/-- The scanner after one operation. -/
def after? (scanner : CheckedScanner) : Operation → Option CheckedScanner
  | .nextToken => scanner.nextToken?.map Prod.snd
  | .next => scanner.next?.map Prod.snd
  | .number => scanner.number?.map Prod.snd
  | .word => scanner.word?.map Prod.snd
  | .colon => scanner.colon?.map Prod.snd
  | .advance => scanner.advance?
  | .skipBlanks => scanner.skipBlanks?
  | .skipComment => scanner.skipComment?

/-- The scanner after several operations, if none of them fails. -/
def run? (scanner : CheckedScanner) (operations : List Operation) : Option CheckedScanner :=
  operations.foldlM after? scanner

end CheckedScanner

end MiniPascal
