import MiniPascal.Scan.Cursor
import MiniPascal.Scan.Event
import MiniPascal.Scan.Lexeme
import MiniPascal.Scan.LexicalError
import MiniPascal.Scan.Separator

/-!
# Scanners

A scanner is a cursor that remembers where its last token began.  `nextToken`
passes the separators at the cursor and reads the lexeme after them; `next?` does
the same for a consumer that wants the tokens before the end of input only and
stops for good at an error.

Next to these two stand the single moves, which may be made anywhere.

The main statement is progress: a step that gives a token other than the end of
input has moved forward (`remaining_nextToken_lt`), so reading to the end ends.
-/

namespace MiniPascal

/-! ## §1 Scanners -/

structure Scanner where
  cursor : Cursor
  /-- Where the last token began. -/
  tokenStart : Location
  finished : Bool
  deriving DecidableEq

/-- What an operation of a scanner leaves: a result, the events on the way, and the
scanner afterwards. -/
structure Outcome (α : Type) where
  result : α
  events : List Event
  scanner : Scanner

namespace Scanner

/-- The scanner at the start of a text. -/
def start (source : List Char) : Scanner := ⟨.start source, .start, false⟩

/-- The number of bytes before the place that the scan has reached. -/
def position (scanner : Scanner) : Nat := scanner.cursor.position

/-- The span from the start of the last token to the place reached, which is the
span of that token right after it was read.  Right after an error it is empty, and
stands at the character of the error. -/
def tokenSpan (scanner : Scanner) : Span := .upTo scanner.tokenStart scanner.position

/-- Moves over `n` characters. -/
def drop (scanner : Scanner) (n : Nat) : Scanner :=
  { scanner with cursor := scanner.cursor.drop n }

/-- Takes the present place as the start of the token. -/
def markStart (scanner : Scanner) : Scanner :=
  { scanner with tokenStart := scanner.cursor.location }

/-! ## §2 Single moves -/

def advance (scanner : Scanner) : Scanner := scanner.drop 1

def skipBlanks (scanner : Scanner) : Scanner :=
  { scanner with cursor := scanner.cursor.skipWhile isBlank }

/-- Moves over the body of a comment and its closing brace.  Without a closing
brace the move goes to the end and reports the comment. -/
def skipComment (scanner : Scanner) : Outcome Unit :=
  let body := scanner.cursor.rest.takeWhile (· ≠ '\x7d')
  let here := scanner.cursor.location
  let events :=
    if body.length = scanner.cursor.rest.length then [Event.openComment here.line here.column]
    else []
  ⟨(), events, scanner.drop (body.length + 1)⟩

/-- The event of a literal that is too large. -/
def saturation (lexeme : Lexeme) : List Event :=
  if lexeme.saturated then
    let literal := String.ofList lexeme.text
    if lexeme.token.kind = .realLiteral then [.realSaturated literal]
    else [.integerSaturated literal]
  else []

/-- Moves over a lexeme, whose token is the result. -/
def take (scanner : Scanner) (lexeme : Lexeme) : Outcome Token :=
  ⟨lexeme.token, saturation lexeme, scanner.drop lexeme.text.length⟩

def number (scanner : Scanner) : Outcome Token :=
  scanner.take (.number scanner.cursor.rest)

def word (scanner : Scanner) : Outcome Token :=
  scanner.take (.word scanner.cursor.rest)

/-- Reads a colon or an assignment sign here. -/
def colon (scanner : Scanner) : Outcome Token :=
  scanner.take (.colon scanner.cursor.rest)

/-! ## §3 The next token -/

/-- The event of a comment that is left open among some separators. -/
def openComments (here : Location) (separators : List Separator) : List Event :=
  match Separator.openAt? here separators with
  | some body => [.openComment body.line body.column]
  | none => []

/-- The scanner behind the separators that stand here, with the start of the token
marked. -/
def skipSeparators (scanner : Scanner) : Outcome Unit :=
  let separators := (Separator.split scanner.cursor.rest).1
  ⟨(), openComments scanner.cursor.location separators,
    (scanner.drop (Separator.spellAll separators).length).markStart⟩

/-- **The next token.**  At the end of the text it is the end of input, however
often it is asked for; at a character that begins no token there is an error, and
the scanner stays on that character. -/
def nextToken (scanner : Scanner) : Outcome (Except LexicalError Token) :=
  let ⟨_, before, here⟩ := scanner.skipSeparators
  match here.cursor.rest with
  | [] => ⟨.ok .endOfInput, before, here⟩
  | c :: _ =>
    match Lexeme.first? here.cursor.rest with
    | none =>
        ⟨.error ⟨c, .upTo here.tokenStart (here.position + c.utf8Size)⟩, before, here⟩
    | some lexeme =>
        let ⟨token, saturated, after⟩ := here.take lexeme
        let found := Event.token token.kind here.tokenStart.line here.tokenStart.column
        ⟨.ok token, before ++ saturated ++ [found], after⟩

/-- **The next item of an iteration.**  The end of input is not an item, and an
error is the last one. -/
def next? (scanner : Scanner) : Outcome (Option (Except LexicalError Token)) :=
  if scanner.finished then ⟨none, [], scanner⟩
  else
    let ⟨result, events, after⟩ := scanner.nextToken
    match result with
    | .ok token =>
        if token.kind = .endOfInput then ⟨none, events, { after with finished := true }⟩
        else ⟨some (.ok token), events, after⟩
    | .error error => ⟨some (.error error), events, { after with finished := true }⟩

/-! ## §4 Progress -/

/-- What a scanner has still to read, in characters. -/
def remaining (scanner : Scanner) : Nat := scanner.cursor.rest.length

theorem remaining_drop (scanner : Scanner) (n : Nat) :
    (scanner.drop n).remaining = scanner.remaining - n := by
  simp [remaining, drop, Cursor.drop]

theorem remaining_skipSeparators_le (scanner : Scanner) :
    scanner.skipSeparators.scanner.remaining ≤ scanner.remaining := by
  simp [skipSeparators, markStart, remaining, drop, Cursor.drop]

/-- **Progress.**  A token other than the end of input leaves less to read. -/
theorem remaining_nextToken_lt {scanner : Scanner} {token : Token}
    (hfound : scanner.nextToken.result = .ok token) (hinside : token.kind ≠ .endOfInput) :
    scanner.nextToken.scanner.remaining < scanner.remaining := by
  have hbefore := remaining_skipSeparators_le scanner
  unfold nextToken at hfound ⊢
  dsimp only at hfound ⊢
  split at hfound
  · simp only [Except.ok.injEq] at hfound
    exact absurd (by rw [← hfound]; rfl) hinside
  · rename_i c rest hrest
    split at hfound
    · simp at hfound
    · rename_i lexeme hfirst
      -- the scanner moves over the lexeme, which has a character at least
      have hpos := List.length_pos_iff.mpr (Lexeme.text_ne_nil_of_first? hfirst)
      have hle : scanner.skipSeparators.scanner.remaining ≠ 0 := by
        simp [remaining, hrest]
      simp only [take, remaining_drop]
      omega

end Scanner

end MiniPascal
