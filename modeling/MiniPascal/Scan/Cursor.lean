import MiniPascal.Location

/-!
# Cursors

A cursor is a place in a text together with what follows it.  It only ever moves
forward, by `drop`, and keeps its location up to date on the way; past the end
of the text it stays where it is.

`skipWhile` moves over the longest initial part of the rest whose characters all
have a property, and `skipWhile_eq_advance` says that this is a run of single steps.
-/

namespace MiniPascal

/-! ## §1 Cursors and their views -/

structure Cursor where
  /-- The whole text. -/
  source : List Char
  /-- The text from the place on. -/
  rest : List Char
  location : Location
  deriving DecidableEq

namespace Cursor

/-- The cursor at the start of a text. -/
def start (source : List Char) : Cursor := ⟨source, source, .start⟩

def position (cursor : Cursor) : Nat := cursor.location.offset

/-- The character at the cursor; there is none at the end. -/
def current? (cursor : Cursor) : Option Char := cursor.rest.head?

def peek? (cursor : Cursor) : Option Char := cursor.rest.tail.head?

def atEnd (cursor : Cursor) : Bool := cursor.rest.isEmpty

/-- The text between byte `start` and the cursor, if `start` is a character
boundary that is not past the cursor. -/
def textFrom? (cursor : Cursor) (start : Nat) : Option (List Char) :=
  sliceBytes? start cursor.position cursor.source

/-! ## §2 Moving -/

/-- Moves over `n` characters, or to the end if fewer follow. -/
def drop (cursor : Cursor) (n : Nat) : Cursor :=
  { cursor with
    rest := cursor.rest.drop n
    location := cursor.location.advance (cursor.rest.take n) }

def advance (cursor : Cursor) : Cursor := cursor.drop 1

/-- Moves over the longest initial part of the rest whose characters all satisfy
`p`. -/
def skipWhile (cursor : Cursor) (p : Char → Bool) : Cursor :=
  cursor.drop (cursor.rest.takeWhile p).length

@[simp]
theorem drop_zero (cursor : Cursor) : cursor.drop 0 = cursor := by
  simp [drop]

/-- A cursor before an initial part of its rest moves over it. -/
theorem drop_length {cursor : Cursor} {passed rest : List Char}
    (h : cursor.rest = passed ++ rest) :
    cursor.drop passed.length = ⟨cursor.source, rest, cursor.location.advance passed⟩ := by
  simp [drop, h]

/-- Moving twice is moving over the characters of both moves. -/
theorem drop_drop (cursor : Cursor) (n m : Nat) :
    (cursor.drop n).drop m = cursor.drop (n + m) := by
  simp [drop, List.take_add, Location.advance_append]

/-- A character that satisfies `p` is passed by a single step, and skipping goes on
from there; any other character stops it. -/
theorem skipWhile_eq_advance (cursor : Cursor) (p : Char → Bool) :
    cursor.skipWhile p =
      if cursor.current?.any p then cursor.advance.skipWhile p else cursor := by
  rcases cursor with ⟨source, rest, location⟩
  cases rest with
  | nil => simp [skipWhile, current?]
  | cons c rest =>
      by_cases hc : p c = true
      · simp [skipWhile, advance, current?, drop, hc]
      · simp [skipWhile, current?, hc]

end Cursor

end MiniPascal
