import MiniPascal.Scan.Scanner

/-!
# Readings

A reading is all that a scanner gives when it is asked for tokens up to the end of
input or the first error: the tokens with their spans, the error if there is one,
and the events in order.  `scan` reads a whole program.

Iteration is the other way to read a program; `items` collects what it gives.
-/

namespace MiniPascal

/-! ## §1 Readings -/

/-- A token and the stretch of text that it stands on. -/
structure PlacedToken where
  token : Token
  span : Span
  deriving DecidableEq

/-- What is read up to the end of input or the first error. -/
structure Reading where
  /-- The tokens in order.  The last is the end of input, unless there is an
  error. -/
  tokens : List PlacedToken
  error? : Option LexicalError
  events : List Event
  scanner : Scanner

namespace Scanner

/-- **Reads to the end** of input or to the first error. -/
def readAll (scanner : Scanner) : Reading :=
  match _hfound : scanner.nextToken with
  | ⟨.error error, events, after⟩ => ⟨[], some error, events, after⟩
  | ⟨.ok token, events, after⟩ =>
    let placed : PlacedToken := ⟨token, after.tokenSpan⟩
    if _hinside : token.kind ≠ .endOfInput then
      let more := after.readAll
      ⟨placed :: more.tokens, more.error?, events ++ more.events, more.scanner⟩
    else ⟨[placed], none, events, after⟩
termination_by scanner.remaining
decreasing_by
  have := @remaining_nextToken_lt scanner token (by rw [_hfound]) _hinside
  rwa [_hfound] at this

end Scanner

/-- The tokens, with the end of input as the last, or the error. -/
def Reading.outcome (reading : Reading) : Except LexicalError (List Token) :=
  match reading.error? with
  | some error => .error error
  | none => .ok (reading.tokens.map PlacedToken.token)

/-- The reading of a program from its first character. -/
def readProgram (source : String) : Reading :=
  (Scanner.start source.toList).readAll

/-- **The tokens of a program**, with the end of input as the last, or the first
lexical error. -/
def scan (source : String) : Except LexicalError (List Token) :=
  (readProgram source).outcome

/-! ## §2 Iteration -/

namespace Scanner

/-- How many more items an iteration can give. -/
def pending (scanner : Scanner) : Nat :=
  scanner.remaining + if scanner.finished then 0 else 1

/-- An item leaves less to read, or is an error and ends the iteration. -/
theorem pending_next?_lt {scanner : Scanner} {item : Except LexicalError Token}
    (hfound : scanner.next?.result = some item) :
    scanner.next?.scanner.pending < scanner.pending := by
  -- reading a token does not touch the flag and never goes back
  have hkeeps : scanner.nextToken.scanner.finished = scanner.finished := by
    unfold nextToken
    dsimp only
    split
    · rfl
    · split <;> rfl
  have hshrinks : scanner.nextToken.scanner.remaining ≤ scanner.remaining := by
    have hbefore := remaining_skipSeparators_le scanner
    unfold nextToken
    dsimp only
    split
    · exact hbefore
    · split
      · exact hbefore
      · simp only [take, remaining_drop]
        omega
  unfold next? at hfound ⊢
  by_cases hfinished : scanner.finished = true
  · simp [hfinished] at hfound
  · simp only [hfinished, Bool.false_eq_true, if_false] at hfound ⊢
    cases hresult : scanner.nextToken.result with
    | ok token =>
        simp only [hresult] at hfound ⊢
        by_cases hend : token.kind = .endOfInput
        · simp [hend] at hfound
        · have := remaining_nextToken_lt hresult hend
          simp only [hend, if_false, pending, hkeeps]
          omega
    | error error =>
        simp only [pending, hfinished, remaining] at hshrinks ⊢
        simp
        omega

def items (scanner : Scanner) : Outcome (List (Except LexicalError Token)) :=
  match _hfound : scanner.next? with
  | ⟨none, events, after⟩ => ⟨[], events, after⟩
  | ⟨some item, events, after⟩ =>
    let more := after.items
    ⟨item :: more.result, events ++ more.events, more.scanner⟩
termination_by scanner.pending
decreasing_by
  have := @pending_next?_lt scanner item (by rw [_hfound])
  rwa [_hfound] at this

end Scanner

end MiniPascal
