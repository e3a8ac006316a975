import MiniPascal.Proofs.Scan.Soundness
import MiniPascal.Proofs.Scan.Step

/-!
# Scanning Is Local

What a scanner does depends on the rest of its text only.  In the middle of a text it
reads what a scanner at the start of that rest reads, at other places: those of the inner
text, counted from where it begins in the whole one.

- `Location.within`: from a place in the inner text to the place in the whole one;
- `Resumes.nextToken`, `Resumes.readAll`: one token and all of them;
- `exists_suffix_run`: every state of a scanner against the rest of its text.
-/

namespace MiniPascal

open Grammar

/-! ## §1 Places in an inner text -/

namespace Location

variable (base : Location)

/-- The line of a text that begins at `base`. -/
def lineWithin (line : Nat) : Nat := base.line + line - 1

/-- The column in a text that begins at `base`.  Only the first line of such a text goes on
with a line of the whole one. -/
def columnWithin (line column : Nat) : Nat :=
  if line = 1 then base.column + column - 1 else column

/-- **The place in the whole text** of a place in a text that begins at `base`. -/
def within (here : Location) : Location :=
  ⟨base.offset + here.offset, base.lineWithin here.line, base.columnWithin here.line here.column⟩

/-- A step in the inner text is a step in the whole one, as lines and columns count from
one. -/
theorem within_next {here : Location} (hline : 1 ≤ here.line) (hcolumn : 1 ≤ here.column)
    (c : Char) : base.within (here.next c) = (base.within here).next c := by
  unfold next
  split
  · -- behind a line feed the column does not depend on `base`
    have hfurther : here.line + 1 ≠ 1 := by omega
    simp only [within, lineWithin, columnWithin, if_neg hfurther, mk.injEq, and_true]
    omega
  · -- in the first line the columns go on from `base`, in the others they do not
    by_cases hfirst : here.line = 1
    · simp only [within, lineWithin, columnWithin, hfirst, if_true, mk.injEq]
      exact ⟨by omega, trivial, by omega⟩
    · simp only [within, lineWithin, columnWithin, if_neg hfirst, mk.injEq, and_true]
      omega

/-- **Walking from `base`** is walking from the start of a text that begins there. -/
theorem advance_eq_within (text : List Char) :
    base.advance text = base.within (start.advance text) := by
  -- one character more at the end, where `within_next` applies
  induction text using List.reverseRecOn with
  | nil => rfl
  | append_singleton text c ih =>
    have hline := line_advance_start text
    have hcolumn := column_advance_start text
    rw [advance_append, advance_append, ih]
    exact (within_next base (by omega) (by omega) c).symm

end Location

/-- The span in the whole text of a span in a text that begins at `base`. -/
def Span.within (base : Location) (span : Span) : Span :=
  ⟨base.offset + span.start, base.offset + span.stop, base.lineWithin span.line,
    base.columnWithin span.line span.column⟩

/-- The same error, seen from the whole text. -/
def LexicalError.within (base : Location) (error : LexicalError) : LexicalError :=
  { error with span := error.span.within base }

/-- The same token, seen from the whole text. -/
def PlacedToken.within (base : Location) (placed : PlacedToken) : PlacedToken :=
  { placed with span := placed.span.within base }

/-- The same event, seen from the whole text. -/
def Event.within (base : Location) : Event → Event
  | token kind line column => token kind (base.lineWithin line) (base.columnWithin line column)
  | openComment line column => openComment (base.lineWithin line) (base.columnWithin line column)
  | integerSaturated literal => integerSaturated literal
  | realSaturated literal => realSaturated literal

/-! ## §2 One token -/

namespace Scanner

/-- `outer` has the same to read as `inner`, which began to read at `base`. -/
structure Resumes (base : Location) (inner outer : Scanner) : Prop where
  rest : outer.cursor.rest = inner.cursor.rest
  passed : ∃ text, inner.cursor.location = Location.start.advance text ∧
    outer.cursor.location = base.advance text

/-- An outcome is the same in the inner and in the whole text, but for the places. -/
structure Mirrors (base : Location) (inner outer : Outcome (Except LexicalError Token)) :
    Prop where
  result : outer.result = inner.result.mapError (·.within base)
  events : outer.events = inner.events.map (·.within base)
  tokenSpan : outer.scanner.tokenSpan = inner.scanner.tokenSpan.within base
  scanner : Resumes base inner.scanner outer.scanner

variable {base : Location} {inner outer : Scanner}

/-- Every scanner resumes what a scanner at the start of its rest begins. -/
theorem resumes_start (scanner : Scanner) :
    Resumes scanner.cursor.location (start scanner.cursor.rest) scanner :=
  ⟨rfl, [], rfl, rfl⟩

theorem Resumes.location (hresumes : Resumes base inner outer) :
    outer.cursor.location = base.within inner.cursor.location := by
  obtain ⟨text, hhere, hthere⟩ := hresumes.passed
  rw [hhere, hthere, Location.advance_eq_within]

/-- Both scanners stay together when they move over as many characters. -/
theorem Resumes.drop (hresumes : Resumes base inner outer) (n : Nat) :
    Resumes base (inner.drop n) (outer.drop n) := by
  obtain ⟨passed, hhere, hthere⟩ := hresumes.passed
  refine ⟨congrArg (List.drop n) hresumes.rest, passed ++ inner.cursor.rest.take n, ?_, ?_⟩
  · show inner.cursor.location.advance _ = _
    rw [hhere, Location.advance_append]
  · show outer.cursor.location.advance _ = _
    rw [hthere, hresumes.rest, Location.advance_append]

theorem Resumes.tokenSpan (hresumes : Resumes base inner outer)
    (hmarked : outer.tokenStart = base.within inner.tokenStart) :
    outer.tokenSpan = inner.tokenSpan.within base := by
  unfold Scanner.tokenSpan position Cursor.position
  rw [hmarked, hresumes.location]
  rfl

/-- A comment that is left open is left open in both texts. -/
theorem Resumes.openAt? (hresumes : Resumes base inner outer) (separators : List Separator) :
    Separator.openAt? outer.cursor.location separators
      = (Separator.openAt? inner.cursor.location separators).map base.within := by
  -- `passed` grows by each separator in front of the open comment
  obtain ⟨passed, hhere, hthere⟩ := hresumes.passed
  rw [hhere, hthere]
  clear hhere hthere
  induction separators generalizing passed with
  | nil => rfl
  | cons separator separators ih =>
    cases separator with
    | openComment body =>
      have hbrace := Location.advance_eq_within base (passed ++ ['\x7b'])
      rw [Location.advance_append, Location.advance_append] at hbrace
      exact congrArg some hbrace
    | blank c =>
      have hmore := ih (passed ++ Separator.spell (.blank c))
      rwa [Location.advance_append, Location.advance_append] at hmore
    | comment body =>
      have hmore := ih (passed ++ Separator.spell (.comment body))
      rwa [Location.advance_append, Location.advance_append] at hmore

/-- Behind the separators, which are the same, both scanners mark the start of the token. -/
theorem Resumes.skipSeparators (hresumes : Resumes base inner outer) :
    Resumes base inner.skipSeparators.scanner outer.skipSeparators.scanner ∧
      outer.skipSeparators.events = inner.skipSeparators.events.map (·.within base) := by
  unfold Scanner.skipSeparators openComments
  dsimp only
  rw [hresumes.rest, hresumes.openAt?]
  constructor
  · have hmoved := hresumes.drop (Separator.spellAll (Separator.split inner.cursor.rest).1).length
    exact ⟨hmoved.rest, hmoved.passed⟩
  · cases Separator.openAt? inner.cursor.location (Separator.split inner.cursor.rest).1 <;> rfl

/-- A literal that is too large is reported in the same way everywhere. -/
theorem map_within_saturation (base : Location) (lexeme : Lexeme) :
    (saturation lexeme).map (·.within base) = saturation lexeme := by
  unfold saturation
  dsimp only
  split
  · split <;> rfl
  · rfl

/-- **One token.**  The rest of the text decides, and the places follow. -/
theorem Resumes.nextToken (hresumes : Resumes base inner outer) :
    Mirrors base inner.nextToken outer.nextToken := by
  obtain ⟨hbehind, hevents⟩ := hresumes.skipSeparators
  have hmarked : outer.skipSeparators.scanner.tokenStart
      = base.within inner.skipSeparators.scanner.tokenStart := hbehind.location
  unfold Scanner.nextToken
  simp only [hbehind.rest]
  split
  -- nothing is left
  · exact ⟨rfl, hevents, hbehind.tokenSpan hmarked, hbehind⟩
  · split
    -- a stray character
    · refine ⟨?_, hevents, hbehind.tokenSpan hmarked, hbehind⟩
      have hplace : outer.skipSeparators.scanner.position
          = base.offset + inner.skipSeparators.scanner.position :=
        congrArg Location.offset hbehind.location
      rw [hmarked, hplace, Nat.add_assoc]
      rfl
    -- a lexeme
    · rename_i lexeme _
      have hfurther := hbehind.drop lexeme.text.length
      refine ⟨rfl, ?_, hfurther.tokenSpan hmarked, hfurther⟩
      simp only [take, List.map_append, hevents, map_within_saturation, hmarked]
      rfl

/-! ## §3 All tokens -/

/-- **A whole reading.**  The same tokens stand in the inner and in the whole text. -/
theorem Resumes.readAll (hresumes : Resumes base inner outer) :
    outer.readAll.tokens = inner.readAll.tokens.map (·.within base) ∧
      outer.readAll.error? = inner.readAll.error?.map (·.within base) ∧
      outer.readAll.events = inner.readAll.events.map (·.within base) := by
  -- along the inner reading; the outer one takes the same steps
  induction inner using reading_induction generalizing outer with
  | ended inner hresult =>
    have hmirrors := hresumes.nextToken
    have hresult' : outer.nextToken.result = .ok .endOfInput := by
      rw [hmirrors.result, hresult]
      rfl
    rw [readAll_of_endOfInput hresult, readAll_of_endOfInput hresult', hmirrors.tokenSpan]
    exact ⟨rfl, rfl, hmirrors.events⟩
  | failed inner error hresult =>
    have hmirrors := hresumes.nextToken
    have hresult' : outer.nextToken.result = .error (error.within base) := by
      rw [hmirrors.result, hresult]
      rfl
    rw [readAll_of_error hresult, readAll_of_error hresult']
    exact ⟨rfl, rfl, hmirrors.events⟩
  | found inner token hresult hinside ih =>
    have hmirrors := hresumes.nextToken
    have hresult' : outer.nextToken.result = .ok token := by rw [hmirrors.result, hresult]; rfl
    obtain ⟨htokens, herror, hevents⟩ := ih hmirrors.scanner
    rw [readAll_of_token hresult hinside, readAll_of_token hresult' hinside, hmirrors.tokenSpan]
    refine ⟨?_, herror, ?_⟩
    · rw [htokens]
      rfl
    · rw [hevents, hmirrors.events, List.map_append]

/-! ## §4 Every state -/

/-- **Every state reads the rest of its text.**  Whatever was done with a scanner, the next
token is the one that a new scanner finds at the start of what is left, and so are all
tokens from there on.  The places follow: offsets are further on by the bytes before the
rest, lines by the lines, and columns by the columns as long as no line feed was passed. -/
theorem exists_suffix_run (source : List Char) (operations : List Operation) :
    let here := (start source).run operations
    let base := here.cursor.location
    ∃ suffix, dropBytes? here.position source = some suffix ∧
      let fresh := start suffix
      here.nextToken.result = fresh.nextToken.result.mapError (·.within base) ∧
      here.nextToken.events = fresh.nextToken.events.map (·.within base) ∧
      here.nextToken.scanner.cursor.location
        = base.within fresh.nextToken.scanner.cursor.location ∧
      here.nextToken.scanner.tokenSpan = fresh.nextToken.scanner.tokenSpan.within base ∧
      here.readAll.tokens
        = (readProgram (String.ofList suffix)).tokens.map (·.within base) ∧
      here.readAll.error?
        = (readProgram (String.ofList suffix)).error?.map (·.within base) := by
  intro here base
  obtain ⟨marked, token, hstands⟩ := exists_stands_run source operations
  -- the rest of the text is an inner text, and the place where it begins is its base
  have hresumes := resumes_start here
  have hmirrors := hresumes.nextToken
  obtain ⟨htokens, herror, -⟩ := hresumes.readAll
  rw [← String.toList_ofList (l := here.cursor.rest)] at htokens herror
  exact ⟨here.cursor.rest, hstands.sound.behind, hmirrors.result, hmirrors.events,
    hmirrors.scanner.location, hmirrors.tokenSpan, htokens, herror⟩

end Scanner

end MiniPascal
