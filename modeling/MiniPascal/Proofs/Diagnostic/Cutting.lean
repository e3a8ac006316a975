import MiniPascal.Diagnostic.Excerpt
import MiniPascal.Proofs.Text.Places
import MiniPascal.Proofs.Text.Stretches
import Mathlib.Algebra.Group.Nat.Defs

/-!
# Excerpts of Any Span

An excerpt can be asked for with any span whatever.  Some spans have none; all others are found
on the line that they name, and printed in two rows.

- `cut_eq_error_iff`: the spans that have no excerpt, and why;
- `cut?_eq`: the sums of cutting fit in machine words;
- `cut_text`: the excerpt of a text that stands in a program;
- `pieces_text`, `getElem?_caretRow`: the two printed rows, and the carets in the second.
-/

namespace MiniPascal.Excerpt

variable {source : List Char} {span : Span}

/-! ## §1 Spans without an excerpt -/

/-- **Why a span has no excerpt.**  The reasons exclude each other. -/
inductive Refused (source : List Char) (span : Span) : ExcerptError → Prop where
  | reversed (hbackwards : span.stop < span.start) :
      Refused source span (.reversed span.start span.stop)
  | outOfBounds (hordered : span.start ≤ span.stop) (hbeyond : byteLength source < span.stop) :
      Refused source span (.outOfBounds (byteLength source) span.start span.stop)
  /-- Line zero is taken for line one. -/
  | noSuchLine (hordered : span.start ≤ span.stop) (hinside : span.stop ≤ byteLength source)
      (hfew : (splitLines source).length ≤ span.line - 1) :
      Refused source span (.noSuchLine span.line (splitLines source).length)

/-- The excerpt of a span on a line. -/
def marking (source : List Char) (span : Span) (raw : List Char) : Excerpt where
  line := String.ofList (dropReturn raw)
  lineNumber := span.line
  startColumn := max span.column 1
  endColumn := min (max span.column 1 + highlighted source span) ((dropReturn raw).length + 1)
  label? := none

theorem cut_of_line {raw : List Char} (hordered : span.start ≤ span.stop)
    (hinside : span.stop ≤ byteLength source)
    (hfound : (splitLines source)[span.line - 1]? = some raw) :
    cut source span = .ok (marking source span raw) := by
  -- neither of the two checks before the line is found refuses the span
  rw [cut, if_neg (Nat.not_lt.mpr hordered), if_neg (Nat.not_lt.mpr hinside)]
  simp only [hfound]
  rfl

/-- **Spans are refused for these reasons only**, and for each of them. -/
theorem cut_eq_error_iff {error : ExcerptError} :
    cut source span = .error error ↔ Refused source span error := by
  constructor
  · intro hfailed
    -- the checks are made in this order, and each relies on those before it
    by_cases hbackwards : span.stop < span.start
    · rw [cut, if_pos hbackwards] at hfailed
      obtain rfl := Except.error.inj hfailed
      exact .reversed hbackwards
    have hordered := Nat.le_of_not_lt hbackwards
    by_cases hbeyond : byteLength source < span.stop
    · rw [cut, if_neg hbackwards, if_pos hbeyond] at hfailed
      obtain rfl := Except.error.inj hfailed
      exact .outOfBounds hordered hbeyond
    have hinside := Nat.le_of_not_lt hbeyond
    -- what is left to fail is the search for the line
    cases hfound : (splitLines source)[span.line - 1]? with
    | none =>
      rw [cut, if_neg hbackwards, if_neg hbeyond] at hfailed
      simp only [hfound] at hfailed
      obtain rfl := Except.error.inj hfailed
      exact .noSuchLine hordered hinside (List.getElem?_eq_none_iff.mp hfound)
    | some raw =>
      rw [cut_of_line hordered hinside hfound] at hfailed
      -- an excerpt is no error
      cases hfailed
  · -- each reason carries what makes the checks before its own pass
    intro hrefused
    cases hrefused with
    | reversed hbackwards => rw [cut, if_pos hbackwards]
    | outOfBounds hordered hbeyond => rw [cut, if_neg (Nat.not_lt.mpr hordered), if_pos hbeyond]
    | noSuchLine hordered hinside hfew =>
      rw [cut, if_neg (Nat.not_lt.mpr hordered), if_neg (Nat.not_lt.mpr hinside)]
      simp only [List.getElem?_eq_none hfew]

/-! ## §2 Machine words -/

/-- A sum in a machine word, if it fits. -/
def sum? (left right : Nat) : Option Nat :=
  if left + right < UInt64.size then some (left + right) else none

/-- Cutting a line out of a program with sums in machine words. -/
def cut? (source : List Char) (span : Span) : Option (Except ExcerptError Excerpt) :=
  if span.stop < span.start then some (.error (.reversed span.start span.stop))
  else if byteLength source < span.stop then
    some (.error (.outOfBounds (byteLength source) span.start span.stop))
  else
    let lines := splitLines source
    match lines[span.line - 1]? with
    | none => some (.error (.noSuchLine span.line lines.length))
    | some raw => do
      let line := dropReturn raw
      let first := max span.column 1
      let last ← sum? first (highlighted source span)
      let width ← sum? line.length 1
      return .ok ⟨String.ofList line, span.line, first, min last width, none⟩

theorem sum?_eq {left right : Nat} (hroom : left + right < UInt64.size) :
    sum? left right = some (left + right) := if_pos hroom

/-- What is highlighted is a part of the text. -/
theorem highlighted_le (source : List Char) (span : Span) :
    highlighted source span ≤ byteLength source := by
  unfold highlighted
  split
  · rename_i text hslice
    calc (text.takeWhile (· ≠ '\n')).length
        ≤ text.length := (List.takeWhile_prefix _).length_le
      _ ≤ source.length := (isInfix_of_sliceBytes? hslice).length_le
      _ ≤ byteLength source := length_le_byteLength source
  · exact Nat.zero_le _

theorem length_line_le {raw : List Char} (hamong : raw ∈ splitLines source) :
    (dropReturn raw).length ≤ byteLength source :=
  calc (dropReturn raw).length
      ≤ raw.length := length_dropReturn_le raw
    _ ≤ source.length := (isInfix_of_mem_pieces hamong).length_le
    _ ≤ byteLength source := length_le_byteLength source

/-- **No sum overflows** with a column of 32 bits, in a text that fits in memory. -/
theorem cut?_eq (hcolumn : span.column < 2 ^ 32) (hsize : byteLength source < 2 ^ 63) :
    cut? source span = some (cut source span) := by
  have hword : UInt64.size = 2 ^ 64 := rfl
  have hmarked := highlighted_le source span
  -- the refusals take no sums
  unfold cut? cut
  split
  · rfl
  split
  · rfl
  cases hfound : (splitLines source)[span.line - 1]? with
  | none => simp only [hfound]
  | some raw =>
    have hwidth := length_line_le (List.mem_of_getElem? hfound)
    -- columns and lengths are far below the half of a word, so a sum of two stays in it
    have hlast : max span.column 1 + highlighted source span < UInt64.size := by omega
    have hend' : (dropReturn raw).length + 1 < UInt64.size := by omega
    simp only [hfound, sum?_eq hlast, sum?_eq hend', Option.bind_eq_bind, Option.bind_some]
    rfl

/-! ## §3 The excerpt of a text -/

/-- **The excerpt of a text in a program.**  Its line is the last one before the text, up to the
next line feed, and it marks as many characters as the text has up to its first line feed, but
none behind the line. -/
theorem cut_text (before text after : List Char) :
    let source := before ++ (text ++ after)
    let span := Span.upTo (Location.start.advance before) (byteLength (before ++ text))
    let raw := lastLine before ++ (text ++ after).takeWhile (· ≠ '\n')
    (splitLines source)[span.line - 1]? = some raw ∧
      span.column = 1 + (lastLine before).length ∧
      cut source span = .ok ⟨String.ofList (dropReturn raw), span.line, span.column,
        min (span.column + (text.takeWhile (· ≠ '\n')).length) ((dropReturn raw).length + 1),
        none⟩ := by
  intro source span raw
  have hline : span.line = 1 + before.count '\n' := line_advance_start before
  have hcolumn : span.column = 1 + (lastLine before).length := column_advance_start before
  have hstart : span.start = byteLength before := offset_advance_start before
  have hstop : span.stop = byteLength (before ++ text) := rfl
  -- the offsets lie in the program, so that neither check refuses the span
  have hordered : span.start ≤ span.stop := by
    rw [hstart, hstop, byteLength_append]
    exact Nat.le_add_right ..
  have hinside : span.stop ≤ byteLength source := by
    simp only [hstop, source, byteLength_append]
    omega
  -- line numbers count from one, lines from zero
  have hfound : (splitLines source)[span.line - 1]? = some raw := by
    have hindex : span.line - 1 = before.count '\n' := by omega
    rw [hindex]
    exact getElem?_splitLines before (text ++ after)
  -- the bytes of the span are those of the text
  have hmarked : highlighted source span = (text.takeWhile (· ≠ '\n')).length := by
    rw [highlighted, hstart, hstop, sliceBytes?_middle]
  have hfirst : max span.column 1 = span.column := by omega
  refine ⟨hfound, hcolumn, ?_⟩
  rw [cut_of_line hordered hinside hfound, marking, hmarked, hfirst]

/-! ## §4 The printed rows -/

/-- What stands before the line in its row. -/
def margin (excerpt : Excerpt) : List Char :=
  padLeft excerpt.gutter (decimal excerpt.lineNumber) ++ " | ".toList

/-- What stands before the carets in theirs. -/
def indent (excerpt : Excerpt) : List Char :=
  padLeft excerpt.gutter [] ++ " | ".toList ++ List.replicate (excerpt.startColumn - 1) ' '

theorem length_padLeft {width : Nat} {text : List Char} (hfits : text.length ≤ width) :
    (padLeft width text).length = width := by
  rw [padLeft, List.length_append, List.length_replicate]
  omega

/-- Both rows begin with a column of the same width, however many digits the number of the
line has. -/
theorem length_indent (excerpt : Excerpt) :
    excerpt.indent.length = excerpt.margin.length + (excerpt.startColumn - 1) := by
  -- the gutter has room for the number, and the padding fills it
  have hnumber : (padLeft excerpt.gutter (decimal excerpt.lineNumber)).length = excerpt.gutter :=
    length_padLeft (Nat.le_max_left ..)
  have hempty : (padLeft excerpt.gutter []).length = excerpt.gutter :=
    length_padLeft (Nat.zero_le _)
  simp only [indent, margin, List.length_append, List.length_replicate, hnumber, hempty]

theorem mem_padLeft {width : Nat} {text : List Char} {c : Char} (hinside : c ∈ padLeft width text) :
    c = ' ' ∨ c ∈ text := by
  rcases List.mem_append.mp hinside with hblank | hinside
  · exact .inl (List.eq_of_mem_replicate hblank)
  · exact .inr hinside

/-- Nothing in the margin ends the row. -/
theorem lineFeed_not_mem_margin (excerpt : Excerpt) : '\n' ∉ excerpt.margin := by
  intro hinside
  -- digits and blanks, then a bar between blanks
  rcases List.mem_append.mp hinside with hinside | hinside
  · rcases mem_padLeft hinside with hblank | hdigit
    · cases hblank
    · have := isDigit_of_mem_decimal _ _ hdigit
      cases this
  · revert hinside
    decide

/-- Only blanks and a bar stand before the carets. -/
theorem mem_indent {excerpt : Excerpt} {c : Char} (hinside : c ∈ excerpt.indent) :
    c = ' ' ∨ c = '|' := by
  -- the padding of the gutter, the bar between blanks, and the blanks up to the first caret
  rcases List.mem_append.mp hinside with hinside | hblank
  · rcases List.mem_append.mp hinside with hinside | hbar
    · rcases mem_padLeft hinside with hblank | hnone
      · exact .inl hblank
      · cases hnone
    · have : " | ".toList = [' ', '|', ' '] := rfl
      rw [this] at hbar
      simp only [List.mem_cons, List.not_mem_nil, or_false] at hbar
      tauto
  · exact .inl (List.eq_of_mem_replicate hblank)

/-- Neither the end of the row nor a caret stands before the carets. -/
theorem not_mem_indent (excerpt : Excerpt) : '\n' ∉ excerpt.indent ∧ '^' ∉ excerpt.indent := by
  constructor <;> intro hinside <;> rcases mem_indent hinside with hsame | hsame <;> cases hsame

/-- What stands behind the carets. -/
def remark (excerpt : Excerpt) : List Char :=
  match excerpt.label? with
  | some label => ' ' :: label.toList
  | none => []

theorem caretRow_eq (excerpt : Excerpt) :
    excerpt.caretRow = excerpt.indent ++ List.replicate excerpt.carets '^' := rfl

theorem toList_text (excerpt : Excerpt) :
    excerpt.text.toList
      = (excerpt.margin ++ excerpt.line.toList)
          ++ '\n' :: (excerpt.caretRow ++ excerpt.remark) := by
  have hrows : excerpt.lineRow = excerpt.margin ++ excerpt.line.toList := rfl
  rw [text, String.toList_append, String.toList_ofList, hrows]
  cases hlabel : excerpt.label? <;> simp [remark, hlabel]

/-- **The two rows** of a printed excerpt: its line, and below it the carets with the remark. -/
theorem pieces_text {excerpt : Excerpt} (hfree : '\n' ∉ excerpt.line.toList)
    (hfeed : '\n' ∉ excerpt.remark) :
    pieces '\n' excerpt.text.toList
      = [excerpt.margin ++ excerpt.line.toList, excerpt.caretRow ++ excerpt.remark] := by
  -- the only line feed is the one between the rows
  have hfirst : '\n' ∉ excerpt.margin ++ excerpt.line.toList := by
    rw [List.mem_append]
    exact not_or.mpr ⟨excerpt.lineFeed_not_mem_margin, hfree⟩
  -- before the carets stand blanks and a bar, and the remark has no line feed either
  have hsecond : '\n' ∉ excerpt.caretRow ++ excerpt.remark := by
    rw [caretRow_eq, List.mem_append, List.mem_append]
    refine not_or.mpr ⟨not_or.mpr ⟨excerpt.not_mem_indent.1, ?_⟩, hfeed⟩
    intro hinside
    cases List.eq_of_mem_replicate hinside
  rw [toList_text, pieces_append_separator, pieces_of_not_mem hfirst, pieces_of_not_mem hsecond]
  rfl

/-- **Where the carets stand**: side by side, the first one as far from the left as the first
marked character is in the row above. -/
theorem getElem?_caretRow {excerpt : Excerpt} (hcaret : '^' ∉ excerpt.remark) (i : Nat) :
    (excerpt.caretRow ++ excerpt.remark)[i]? = some '^' ↔
      excerpt.margin.length + (excerpt.startColumn - 1) ≤ i ∧
        i < excerpt.margin.length + (excerpt.startColumn - 1) + excerpt.carets := by
  rw [caretRow_eq, ← length_indent]
  -- before and behind the run of carets there is no other
  exact getElem?_eq_some_iff_of_run excerpt.not_mem_indent.2 hcaret _ i

end MiniPascal.Excerpt
