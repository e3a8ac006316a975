import MiniPascal.Location
import MiniPascal.Numeral.Decimal
import MiniPascal.Text.Split

/-!
# Excerpts

An excerpt is one line of a program with a stretch of it marked: the line is
printed with its number, and carets stand under the stretch.  `Excerpt.cut` takes
the line that a span begins on out of a program; a span that goes on over the end
of that line is marked up to the end of the line only.
-/

namespace MiniPascal

/-! ## §1 Excerpts -/

/-- One line of a program and a stretch of it. -/
structure Excerpt where
  line : String
  /-- Its number, from one. -/
  lineNumber : Nat
  /-- The column of the first marked character, from one. -/
  startColumn : Nat
  /-- The column after the last. -/
  endColumn : Nat
  label? : Option String
  deriving DecidableEq

inductive ExcerptError where
  | reversed (start stop : Nat)
  /-- The span ends behind a text of `size` bytes. -/
  | outOfBounds (size start stop : Nat)
  /-- The text has only `count` lines. -/
  | noSuchLine (line count : Nat)
  deriving DecidableEq

def ExcerptError.message : ExcerptError → String
  | reversed start stop =>
      "Invalid span: start " ++ naturalText start ++ " > end " ++ naturalText stop
  | outOfBounds size start stop =>
      "Span out of bounds: source has " ++ naturalText size ++ " bytes, span is "
        ++ naturalText start ++ ".." ++ naturalText stop
  | noSuchLine line count =>
      "Invalid line number: " ++ naturalText line ++ " (source has " ++ naturalText count
        ++ " lines)"

namespace Excerpt

/-! ## §2 Cutting a line out of a program -/

/-- How many characters of a span stand before the first line feed in it; none if
an end of the span lies inside a character. -/
def highlighted (source : List Char) (span : Span) : Nat :=
  match sliceBytes? span.start span.stop source with
  | some text => (text.takeWhile (· ≠ '\n')).length
  | none => 0

/-- **The line of a span.**  Line zero is taken for line one, and column zero for
column one. -/
def cut (source : List Char) (span : Span) : Except ExcerptError Excerpt :=
  if span.stop < span.start then .error (.reversed span.start span.stop)
  else if byteLength source < span.stop then
    .error (.outOfBounds (byteLength source) span.start span.stop)
  else
    let lines := splitLines source
    match lines[span.line - 1]? with
    | none => .error (.noSuchLine span.line lines.length)
    | some raw =>
      let line := dropReturn raw
      let first := max span.column 1
      .ok
        { line := String.ofList line
          lineNumber := span.line
          startColumn := first
          endColumn := min (first + highlighted source span) (line.length + 1)
          label? := none }

def withLabel (excerpt : Excerpt) (label : String) : Excerpt :=
  { excerpt with label? := some label }

/-! ## §3 Printing -/

/-- A text moved to the right end of a column of `width` characters. -/
def padLeft (width : Nat) (text : List Char) : List Char :=
  List.replicate (width - text.length) ' ' ++ text

/-- The width of the column of line numbers: room for the number, and for three
characters at least. -/
def gutter (excerpt : Excerpt) : Nat :=
  max (decimal excerpt.lineNumber).length 3

/-- The number of carets; an empty stretch is marked by one. -/
def carets (excerpt : Excerpt) : Nat :=
  max (excerpt.endColumn - excerpt.startColumn) 1

def lineRow (excerpt : Excerpt) : List Char :=
  padLeft excerpt.gutter (decimal excerpt.lineNumber) ++ " | ".toList ++ excerpt.line.toList

/-- The row with the carets, without the remark. -/
def caretRow (excerpt : Excerpt) : List Char :=
  padLeft excerpt.gutter [] ++ " | ".toList
    ++ List.replicate (excerpt.startColumn - 1) ' ' ++ List.replicate excerpt.carets '^'

/-- **The printed excerpt**: the line, and below it the carets with the remark. -/
def text (excerpt : Excerpt) : String :=
  let remark := match excerpt.label? with
    | some label => " " ++ label
    | none => ""
  String.ofList (excerpt.lineRow ++ '\n' :: excerpt.caretRow) ++ remark

end Excerpt

end MiniPascal
