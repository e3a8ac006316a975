import MiniPascal.Proofs.Scan.Step

/-!
# Iteration

An iteration gives the tokens before the end of input, and an error as its last item.  It
shares the scanner with the calls for the next token, and it has a flag of its own, which
no other operation reads.

- `items_eq`: an iteration gives what is read up to the end of input or the first error;
- `heard_answers`: calls of both kinds, in any order, are answered with one stream;
- `next?_run`: an iteration that has ended stays ended, whatever is done with the scanner.
-/

namespace MiniPascal

open Grammar

/-- The answers that a reading consists of: its tokens, and the error if there is one. -/
def Reading.stream (reading : Reading) : List (Except LexicalError Token) :=
  reading.tokens.map (fun placed => .ok placed.token) ++ (reading.error?.map .error).toList

namespace Scanner

variable {scanner : Scanner}

/-! ## §1 One item -/

section Item

variable (hrunning : scanner.finished = false)

include hrunning

theorem next?_of_endOfInput (hended : scanner.nextToken.result = .ok .endOfInput) :
    scanner.next? = ⟨none, scanner.nextToken.events,
      { scanner.nextToken.scanner with finished := true }⟩ := by
  simp only [next?, hrunning, Bool.false_eq_true, if_false, hended]
  rfl

theorem next?_of_token {token : Token} (hfound : scanner.nextToken.result = .ok token)
    (hinside : token.kind ≠ .endOfInput) :
    scanner.next?
      = ⟨some (.ok token), scanner.nextToken.events, scanner.nextToken.scanner⟩ := by
  simp only [next?, hrunning, Bool.false_eq_true, if_false, hfound, hinside]

theorem next?_of_error {error : LexicalError} (hfailed : scanner.nextToken.result = .error error) :
    scanner.next? = ⟨some (.error error), scanner.nextToken.events,
      { scanner.nextToken.scanner with finished := true }⟩ := by
  simp only [next?, hrunning, Bool.false_eq_true, if_false, hfailed]

end Item

theorem next?_of_finished (hfinished : scanner.finished = true) :
    scanner.next? = ⟨none, [], scanner⟩ := by
  rw [next?, if_pos hfinished]

/-- Without a token an iteration has ended. -/
theorem finished_next? (hnoToken : ∀ token, scanner.next?.result ≠ some (.ok token)) :
    scanner.next?.scanner.finished = true := by
  cases hrunning : scanner.finished with
  | true =>
    rw [next?_of_finished hrunning]
    exact hrunning
  | false =>
    rcases nextToken_cases scanner with hresult | ⟨error, hresult⟩ | ⟨token, hresult, hinside⟩
    · rw [next?_of_endOfInput hrunning hresult]
    · rw [next?_of_error hrunning hresult]
    · rw [next?_of_token hrunning hresult hinside] at hnoToken
      exact absurd rfl (hnoToken token)

/-! ## §2 All items -/

theorem items_of_none (hended : scanner.next?.result = none) :
    scanner.items = ⟨[], scanner.next?.events, scanner.next?.scanner⟩ := by
  rw [items]
  split
  · rename_i hfound
    rw [hfound]
  · rename_i hfound
    rw [hfound] at hended
    cases hended

theorem items_of_some {item : Except LexicalError Token}
    (hfound : scanner.next?.result = some item) :
    scanner.items = ⟨item :: scanner.next?.scanner.items.result,
      scanner.next?.events ++ scanner.next?.scanner.items.events,
      scanner.next?.scanner.items.scanner⟩ := by
  rw [items]
  split
  · rename_i hended
    rw [hended] at hfound
    cases hfound
  · rename_i hnext
    rw [hnext] at hfound ⊢
    obtain rfl := Option.some.inj hfound
    rfl

/-- **An iteration is a reading.**  It gives the answers of the reading but for the end of
input, with the same events, and leaves the scanner where the reading does. -/
theorem items_eq (scanner : Scanner) (hrunning : scanner.finished = false) :
    scanner.items.result ++ (if scanner.readAll.error?.isNone then [.ok .endOfInput] else [])
        = scanner.readAll.stream ∧
      scanner.items.events = scanner.readAll.events ∧
      scanner.items.scanner = { scanner.readAll.scanner with finished := true } := by
  induction scanner using reading_induction with
  | ended scanner hresult =>
    have hnext := next?_of_endOfInput hrunning hresult
    rw [items_of_none (by rw [hnext]), readAll_of_endOfInput hresult, hnext]
    exact ⟨rfl, rfl, rfl⟩
  | failed scanner error hresult =>
    have hnext := next?_of_error hrunning hresult
    -- the error is an item, and behind it the iteration has ended
    have hlast : scanner.next?.scanner.next? = ⟨none, [], scanner.next?.scanner⟩ := by
      apply next?_of_finished
      rw [hnext]
    have hended := items_of_none (congrArg Outcome.result hlast)
    rw [hlast] at hended
    rw [items_of_some (by rw [hnext]), hended, readAll_of_error hresult, hnext]
    exact ⟨rfl, List.append_nil _, rfl⟩
  | found scanner token hresult hinside ih =>
    have hnext := next?_of_token hrunning hresult hinside
    obtain ⟨hanswers, hevents, hafter⟩ := ih ((finished_nextToken scanner).trans hrunning)
    rw [items_of_some (by rw [hnext]), readAll_of_token hresult hinside, hnext]
    refine ⟨?_, congrArg _ hevents, hafter⟩
    exact congrArg (List.cons _) hanswers

/-! ## §3 Calls in any order -/

/-- The two ways to ask for a token. -/
inductive Call where
  | nextToken
  | next

/-- A call is an operation. -/
def Call.operation : Call → Operation
  | nextToken => .nextToken
  | next => .next

/-- What a call is answered with.  An iteration that has no more items says so in place of
the end of input. -/
def answer (scanner : Scanner) : Call → Except LexicalError Token
  | .nextToken => scanner.nextToken.result
  | .next => scanner.next?.result.getD (.ok .endOfInput)

/-- The answers to several calls. -/
def answers (scanner : Scanner) : List Call → List (Except LexicalError Token)
  | [] => []
  | call :: calls => scanner.answer call :: (scanner.after call.operation).answers calls

/-- Whether nothing is expected behind an answer. -/
def isLast : Except LexicalError Token → Bool
  | .ok token => token.kind = .endOfInput
  | .error _ => true

/-- Answers up to the end of input or the first error. -/
def heard : List (Except LexicalError Token) → List (Except LexicalError Token)
  | [] => []
  | answer :: more => if isLast answer then [answer] else answer :: heard more

/-- As long as an iteration runs, both calls get the same answer. -/
theorem answer_eq (hrunning : scanner.finished = false) (call : Call) :
    scanner.answer call = scanner.nextToken.result := by
  cases call with
  | nextToken => rfl
  | next =>
    rcases nextToken_cases scanner with hresult | ⟨error, hresult⟩ | ⟨token, hresult, hinside⟩
    · rw [answer, next?_of_endOfInput hrunning hresult, Option.getD_none, hresult]
    · rw [answer, next?_of_error hrunning hresult, Option.getD_some, hresult]
    · rw [answer, next?_of_token hrunning hresult hinside, Option.getD_some, hresult]

/-- Behind a token both calls leave the same scanner. -/
theorem after_operation {token : Token} (hrunning : scanner.finished = false)
    (hfound : scanner.nextToken.result = .ok token) (hinside : token.kind ≠ .endOfInput)
    (call : Call) : scanner.after call.operation = scanner.nextToken.scanner := by
  cases call with
  | nextToken => rfl
  | next =>
    show scanner.next?.scanner = _
    rw [next?_of_token hrunning hfound hinside]

/-- **One stream for both calls.**  In whatever order they come, up to the end of input or
the first error they are answered with what a reading gives. -/
theorem heard_answers (hrunning : scanner.finished = false) (calls : List Call) :
    heard (scanner.answers calls) = scanner.readAll.stream.take calls.length := by
  -- by induction on the calls, from the scanner that the earlier ones leave
  induction calls generalizing scanner with
  | nil => rfl
  | cons call calls ih =>
    rw [answers, heard, answer_eq hrunning call, List.length_cons]
    rcases nextToken_cases scanner with hresult | ⟨error, hresult⟩ | ⟨token, hresult, hinside⟩
    · have hstream : scanner.readAll.stream = [.ok .endOfInput] := by
        rw [readAll_of_endOfInput hresult]
        rfl
      rw [hresult, hstream, List.take_succ_cons, List.take_nil]
      rfl
    · have hstream : scanner.readAll.stream = [.error error] := by
        rw [readAll_of_error hresult]
        rfl
      rw [hresult, hstream, List.take_succ_cons, List.take_nil]
      rfl
    · -- whichever call it was, the others go on from the same scanner
      have hmore := ih ((finished_nextToken scanner).trans hrunning)
      have hgoesOn : isLast (.ok token) = false := decide_eq_false hinside
      rw [hresult, hgoesOn, after_operation hrunning hresult hinside, hmore,
        readAll_of_token hresult hinside]
      rfl

/-! ## §4 The end of an iteration -/

/-- **A step keeps the flag** of an iteration that has ended. -/
theorem finished_after (hfinished : scanner.finished = true) (operation : Operation) :
    (scanner.after operation).finished = true := by
  cases operation with
  | nextToken => exact (finished_nextToken scanner).trans hfinished
  -- the only operation that reads the flag, and it does nothing where it is set
  | next =>
    show scanner.next?.scanner.finished = true
    rw [next?_of_finished hfinished]
    exact hfinished
  -- the single moves change the cursor only
  | number | word | colon | advance | skipBlanks | skipComment => exact hfinished

theorem finished_run (hfinished : scanner.finished = true) (operations : List Operation) :
    (scanner.run operations).finished = true := by
  induction operations generalizing scanner with
  | nil => exact hfinished
  | cons operation operations ih =>
    rw [run_cons]
    exact ih (finished_after hfinished operation)

/-- **An iteration that has ended stays ended**, and asking it again changes nothing. -/
theorem next?_run (hnoToken : ∀ token, scanner.next?.result ≠ some (.ok token))
    (operations : List Operation) :
    (scanner.next?.scanner.run operations).next?
      = ⟨none, [], scanner.next?.scanner.run operations⟩ :=
  next?_of_finished (finished_run (finished_next? hnoToken) operations)

end Scanner

/-! ## §5 Iterating over a program -/

open Scanner

/-- **An iteration and a scan are one.**  An iteration over a program gives the tokens of
the scan before the end of input, or those before the error and then the error, and ends
there.  Calls for an item and calls for a token, mixed in any way, are answered with one
stream.  Once the iteration has ended it stays so and leaves the scanner alone, whatever
else is done with it. -/
theorem iteration_of_scan (source : String) :
    (match scan source with
      | .ok tokens => ((start source.toList).items.result ++ [.ok .endOfInput] = tokens.map .ok)
      | .error error => (start source.toList).items.result
          = (readProgram source).tokens.map (fun placed => .ok placed.token) ++ [.error error]) ∧
    (start source.toList).items.scanner.next?.result = none ∧
    (∀ calls, heard ((start source.toList).answers calls)
        = (readProgram source).stream.take calls.length ∧
      heard ((start source.toList).answers calls)
        = heard ((start source.toList).answers (.replicate calls.length .nextToken))) ∧
    ∀ before between,
      let called := ((start source.toList).run before).next?
      (∀ token, called.result ≠ some (.ok token)) →
        let later := called.scanner.run between
        later.next?.result = none ∧ later.next?.scanner = later := by
  have hrunning : (start source.toList).finished = false := rfl
  obtain ⟨hanswers, -, hafter⟩ := items_eq (start source.toList) hrunning
  refine ⟨?_, ?_, ?_, ?_⟩
  · -- the items are the stream of a reading, but for the end of input
    cases houtcome : scan source with
    | ok tokens =>
      obtain ⟨hcomplete, rfl⟩ := Reading.of_outcome_ok houtcome
      have hcomplete' : (start source.toList).readAll.error? = none := hcomplete
      rw [Reading.stream, hcomplete'] at hanswers
      dsimp only
      rw [List.map_map]
      exact hanswers.trans (List.append_nil _)
    | error error =>
      have hfailed : (start source.toList).readAll.error? = some error :=
        Reading.of_outcome_error houtcome
      rw [Reading.stream, hfailed] at hanswers
      exact (List.append_nil _).symm.trans hanswers
  · -- where the items end the flag is set
    rw [hafter, next?_of_finished rfl]
  · -- both sides are initial parts of one stream
    intro calls
    have hstream := heard_answers hrunning calls
    refine ⟨hstream, hstream.trans ?_⟩
    rw [heard_answers hrunning, List.length_replicate]
  · -- no operation takes the flag back
    intro before between called hnoToken later
    have hended : later.next? = ⟨none, [], later⟩ := next?_run hnoToken between
    rw [hended]
    exact ⟨rfl, rfl⟩

/-- The end of an iteration at a question mark stays its end, although the scanner is moved
behind it and finds a name there. -/
theorem iteration_of_scan_movedOn :
    let ended := (start "?a".toList).next?.scanner.run [.advance]
    ended.next?.result = none ∧ ended.nextToken.result = .ok (.identifier "a") := by
  have hnoToken : ∀ token, (start "?a".toList).next?.result ≠ some (.ok token) := by
    have hfailed : (start "?a".toList).next?.result = some (.error ⟨'?', ⟨0, 1, 1, 1⟩⟩) := by
      decide +kernel
    intro token
    rw [hfailed]
    nofun
  exact ⟨((iteration_of_scan "?a").2.2.2 [] [.advance] hnoToken).1, by decide +kernel⟩

end MiniPascal
