import MiniPascal.Proofs.Text.Places
import MiniPascal.Proofs.Text.Stretches
import MiniPascal.Scan.Scanner

/-!
# Operations on a Scanner

A scanner may be used in any way: its operations can be called in any order and at any
place, whether or not the text there is what they are meant for.  Here is what holds
of every state that is reached like this.

- `proceeds_after`: an operation moves forward and marks a token, if at all, on the way;
- `exists_stands_run`: a run stands behind an initial part of the text, whose own
  initial part lies before the last token.
-/

namespace MiniPascal

/-! ## §1 Operations and runs -/

/-- The operations of a scanner. -/
inductive Operation where
  | nextToken
  | next
  | number
  | word
  | colon
  | advance
  | skipBlanks
  | skipComment
  deriving DecidableEq

namespace Scanner

variable {scanner later : Scanner} {source marked token : List Char}

/-- The scanner after one operation. -/
def after (scanner : Scanner) : Operation → Scanner
  | .nextToken => scanner.nextToken.scanner
  | .next => scanner.next?.scanner
  | .number => scanner.number.scanner
  | .word => scanner.word.scanner
  | .colon => scanner.colon.scanner
  | .advance => scanner.advance
  | .skipBlanks => scanner.skipBlanks
  | .skipComment => scanner.skipComment.scanner

/-- The scanner after several operations. -/
def run (scanner : Scanner) (operations : List Operation) : Scanner :=
  operations.foldl after scanner

theorem run_cons (scanner : Scanner) (operation : Operation) (operations : List Operation) :
    scanner.run (operation :: operations) = (scanner.after operation).run operations := rfl

/-! ## §2 What an operation can do -/

/-- `later` stands at or behind the place of `scanner`, and its token begins where that of
`scanner` does or at a place on the way. -/
def Proceeds (scanner later : Scanner) : Prop :=
  ∃ m n, later.cursor = (scanner.cursor.drop m).drop n ∧
    (later.tokenStart = scanner.tokenStart ∨
      later.tokenStart = (scanner.cursor.drop m).location)

theorem proceeds_drop (scanner : Scanner) (n : Nat) : Proceeds scanner (scanner.drop n) := by
  refine ⟨n, 0, ?_, .inl rfl⟩
  rw [Cursor.drop_zero]
  rfl

theorem proceeds_nextToken (scanner : Scanner) : Proceeds scanner scanner.nextToken.scanner := by
  -- the token is marked behind the separators, so these are the first of the two moves
  refine ⟨(Separator.spellAll (Separator.split scanner.cursor.rest).1).length, ?_⟩
  unfold nextToken
  dsimp only
  split
  · exact ⟨0, (Cursor.drop_zero _).symm, .inr rfl⟩
  · split
    · exact ⟨0, (Cursor.drop_zero _).symm, .inr rfl⟩
    · rename_i lexeme _
      exact ⟨lexeme.text.length, rfl, .inr rfl⟩

/-- An iteration does to cursor and token what reading a token does, or nothing. -/
theorem next?_scanner (scanner : Scanner) :
    scanner.next?.scanner = scanner ∨
      ∃ finished, scanner.next?.scanner = { scanner.nextToken.scanner with finished } := by
  -- the three ways on from a token differ in the flag only
  unfold next?
  split
  · exact .inl rfl
  · right
    dsimp only
    split
    · split
      · exact ⟨true, rfl⟩
      · exact ⟨_, rfl⟩
    · exact ⟨true, rfl⟩

/-- **What an operation can do.**  It moves forward, and if it marks the start of a token,
then on the way. -/
theorem proceeds_after (scanner : Scanner) (operation : Operation) :
    Proceeds scanner (scanner.after operation) := by
  cases operation with
  | nextToken => exact proceeds_nextToken scanner
  | next =>
    show Proceeds scanner scanner.next?.scanner
    rcases next?_scanner scanner with hsame | ⟨finished, hsame⟩
    · rw [hsame]
      exact proceeds_drop scanner 0
    -- the flag is neither part of the cursor nor of the token
    · rw [hsame]
      exact proceeds_nextToken scanner
  | number => exact proceeds_drop scanner _
  | word => exact proceeds_drop scanner _
  | colon => exact proceeds_drop scanner _
  | advance => exact proceeds_drop scanner 1
  | skipBlanks => exact proceeds_drop scanner _
  | skipComment => exact proceeds_drop scanner _

/-- No operation goes back. -/
theorem position_le_after (scanner : Scanner) (operation : Operation) :
    scanner.position ≤ (scanner.after operation).position := by
  obtain ⟨m, n, hmoved, -⟩ := proceeds_after scanner operation
  -- two moves forward are one, and a move adds the bytes that it passes
  rw [Cursor.drop_drop] at hmoved
  show scanner.cursor.location.offset ≤ (scanner.after operation).cursor.location.offset
  rw [hmoved]
  show _ ≤ (scanner.cursor.location.advance _).offset
  rw [Location.advance_offset]
  exact Nat.le_add_right ..

/-! ## §3 What holds in every state -/

/-- The scanner has passed `marked` and then `token`, which is where its token begins and
how far it goes. -/
structure Stands (source marked token : List Char) (scanner : Scanner) : Prop where
  source_eq : scanner.cursor.source = source
  whole : source = marked ++ token ++ scanner.cursor.rest
  tokenStart : scanner.tokenStart = Location.start.advance marked
  location : scanner.cursor.location = Location.start.advance (marked ++ token)

theorem stands_start (source : List Char) : Stands source [] [] (start source) :=
  ⟨rfl, rfl, rfl, rfl⟩

/-- The place of a scanner counts the bytes that were passed. -/
theorem Stands.position_eq (hstands : Stands source marked token scanner) :
    scanner.position = byteLength (marked ++ token) := by
  show scanner.cursor.location.offset = _
  rw [hstands.location, offset_advance_start]

/-- Its token begins behind the bytes that were passed before. -/
theorem Stands.tokenSpan_start (hstands : Stands source marked token scanner) :
    scanner.tokenSpan.start = byteLength marked := by
  show scanner.tokenStart.offset = _
  rw [hstands.tokenStart, offset_advance_start]

/-- **A step keeps the invariant**, and what was passed stays passed. -/
theorem Stands.proceeds (hstands : Stands source marked token scanner)
    (hforward : Proceeds scanner later) :
    ∃ marked' token', Stands source marked' token' later := by
  obtain ⟨m, n, hmoved, hkept | hnew⟩ := hforward
  -- the token goes on for as long as both moves do
  · refine ⟨marked, token ++ scanner.cursor.rest.take (m + n), ?_⟩
    rw [Cursor.drop_drop] at hmoved
    constructor
    · rw [hmoved]
      exact hstands.source_eq
    · rw [hmoved, hstands.whole]
      simp [Cursor.drop, List.append_assoc]
    · rw [hkept, hstands.tokenStart]
    · rw [hmoved]
      show scanner.cursor.location.advance _ = _
      rw [hstands.location, ← Location.advance_append, List.append_assoc]
  -- the first move ends before the new token, the second one passes it
  · refine ⟨marked ++ token ++ scanner.cursor.rest.take m,
      (scanner.cursor.rest.drop m).take n, ?_⟩
    have hhere : (scanner.cursor.drop m).location
        = Location.start.advance (marked ++ token ++ scanner.cursor.rest.take m) := by
      show scanner.cursor.location.advance _ = _
      rw [hstands.location, ← Location.advance_append]
    constructor
    · rw [hmoved]
      exact hstands.source_eq
    · rw [hmoved, hstands.whole]
      show _ = _ ++ _ ++ (scanner.cursor.rest.drop m).drop n
      rw [List.append_assoc _ (List.take n _), List.take_append_drop,
        List.append_assoc _ (List.take m _), List.take_append_drop]
    · rw [hnew, hhere]
    · rw [hmoved]
      show (scanner.cursor.drop m).location.advance _ = _
      rw [hhere, ← Location.advance_append]
      rfl

theorem Stands.run (hstands : Stands source marked token scanner) (operations : List Operation) :
    ∃ marked' token', Stands source marked' token' (scanner.run operations) := by
  -- by induction on the operations, from wherever the scanner stands
  induction operations generalizing scanner marked token with
  | nil => exact ⟨marked, token, hstands⟩
  | cons operation operations ih =>
    obtain ⟨marked', token', hnext⟩ := hstands.proceeds (proceeds_after scanner operation)
    rw [run_cons]
    exact ih hnext

/-- **Every state stands somewhere in the text.** -/
theorem exists_stands_run (source : List Char) (operations : List Operation) :
    ∃ marked token, Stands source marked token ((start source).run operations) :=
  (stands_start source).run operations

end Scanner

end MiniPascal
