import MiniPascal.Text.Bytes

/-!
# Locations and Spans

A location names one place in a text in two ways: by the number of bytes before
it, and by its line and column.  Lines and columns count from one, columns count
characters, and only a line feed begins a new line.  A span is a stretch of text:
two byte offsets, with the line and column of its first character.

`Location.advance` walks over text, and `advance_append` says that walking over
two texts in turn is walking over both together.
-/

namespace MiniPascal

/-! ## §1 Locations -/

structure Location where
  offset : Nat
  /-- The line, from one. -/
  line : Nat
  /-- The column in characters, from one. -/
  column : Nat
  deriving DecidableEq

namespace Location

/-- The place before the first character of a text. -/
def start : Location := ⟨0, 1, 1⟩

/-- The place after the character `c` that stands at `here`. -/
def next (here : Location) (c : Char) : Location :=
  if c = '\n' then ⟨here.offset + c.utf8Size, here.line + 1, 1⟩
  else ⟨here.offset + c.utf8Size, here.line, here.column + 1⟩

/-- The place after the text that begins at `here`. -/
def advance (here : Location) (text : List Char) : Location :=
  text.foldl next here

@[simp]
theorem advance_nil (here : Location) : here.advance [] = here := rfl

@[simp]
theorem advance_cons (here : Location) (c : Char) (text : List Char) :
    here.advance (c :: text) = (here.next c).advance text := rfl

/-- Walking over two texts in turn is walking over both together. -/
theorem advance_append (here : Location) (left right : List Char) :
    here.advance (left ++ right) = (here.advance left).advance right := by
  simp [advance, List.foldl_append]

theorem next_offset (here : Location) (c : Char) :
    (here.next c).offset = here.offset + c.utf8Size := by
  unfold next; split <;> rfl

/-- The offset grows by the bytes that were passed. -/
theorem advance_offset (here : Location) (text : List Char) :
    (here.advance text).offset = here.offset + byteLength text := by
  induction text generalizing here with
  | nil => simp
  | cons c text ih => simp [ih, next_offset, Nat.add_assoc]

end Location

/-! ## §2 Spans -/

structure Span where
  start : Nat
  /-- The offset of the byte after its last. -/
  stop : Nat
  /-- The line of its first character, from one. -/
  line : Nat
  /-- The column of its first character, from one. -/
  column : Nat
  deriving DecidableEq

namespace Span

/-- The span from `first` up to the byte offset `stop`. -/
def upTo (first : Location) (stop : Nat) : Span :=
  ⟨first.offset, stop, first.line, first.column⟩

/-- The span of a message that belongs to no place. -/
def nowhere : Span := ⟨0, 0, 0, 0⟩

end Span

end MiniPascal
