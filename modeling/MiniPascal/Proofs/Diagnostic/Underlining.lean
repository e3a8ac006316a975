import MiniPascal.Proofs.Diagnostic.Cutting

/-!
# The Carets Stand Under the Span

What the carets of an excerpt mark.  The line is split off by line feeds, the column comes with
the span, the characters are cut out by bytes, and the carriage return at the end of the line is
dropped: the carets stand under the part of the span that is left on the line.

- `take_drop_dropReturn`: the stretch of a line between two columns;
- `cut_exact`: the excerpt of any span, and what it underlines for the span of a text.
-/

namespace MiniPascal.Excerpt

variable {source : List Char} {span : Span}

/-! ## §1 Stretches of a line -/

section Stretch

variable {left shown tail : List Char}

/-- What a span shows of a line, where `tail` is the line behind the span. -/
def onLine (shown tail : List Char) : List Char :=
  if tail = [] then dropReturn shown else shown

/-- The columns behind a span on a line, clipped to the line. -/
theorem take_drop_of_eq {line marked more : List Char} (hparts : line = left ++ (marked ++ more))
    (hclipped : marked.length = shown.length ∨ marked.length ≤ shown.length ∧ more = []) :
    let count := min (1 + left.length + shown.length) (line.length + 1) - (1 + left.length)
    (line.drop left.length).take count = marked ∧ count = marked.length := by
  intro count
  have hsize : line.length = left.length + (marked.length + more.length) := by
    rw [hparts, List.length_append, List.length_append]
  -- clipping shortens the count by what the line has lost
  have hexact : count = marked.length := by
    rcases hclipped with hfull | ⟨hshort, rfl⟩
    · -- the line may have lost a part behind the stretch, but that does not matter
      omega
    · rw [List.length_nil] at hsize
      omega
  refine ⟨?_, hexact⟩
  rw [hexact, hparts, List.drop_left, List.take_left]

/-- **The stretch between the columns of a span** is what the span shows of the line, without
the carriage return at its end. -/
theorem take_drop_dropReturn (left shown tail : List Char) :
    let line := dropReturn (left ++ (shown ++ tail))
    let count := min (1 + left.length + shown.length) (line.length + 1) - (1 + left.length)
    (line.drop left.length).take count = onLine shown tail ∧
      count = (onLine shown tail).length := by
  -- it matters where the line ends, since the carriage return is dropped there
  by_cases hbehind : tail = []
  · subst hbehind
    rw [List.append_nil, onLine, if_pos rfl]
    by_cases hempty : shown = []
    · -- the carriage return may be the last character before the span
      subst hempty
      have hshorter := length_dropReturn_le left
      intro line count
      have hnone : line.drop left.length = [] :=
        List.drop_eq_nil_iff.mpr (by simpa [line] using hshorter)
      have hzero : count = 0 := by
        simp only [count, line, List.append_nil, List.length_nil]
        omega
      rw [hnone, hzero]
      exact ⟨rfl, rfl⟩
    · -- the span reaches the end of the line, and loses the carriage return with it
      exact take_drop_of_eq (by rw [dropReturn_append left hempty, List.append_nil])
        (.inr ⟨length_dropReturn_le shown, rfl⟩)
  · -- only the part behind the span loses anything
    rw [onLine, if_neg hbehind]
    have hparts : dropReturn (left ++ (shown ++ tail)) = left ++ (shown ++ dropReturn tail) := by
      rw [dropReturn_append left (by simp [hbehind]), dropReturn_append shown hbehind]
    exact take_drop_of_eq hparts (.inl rfl)

end Stretch

/-! ## §2 Underlining -/

/-- **An excerpt underlines a stretch of its line.** -/
structure Underlines (excerpt : Excerpt) (stretch : List Char) : Prop where
  /-- The stretch stands between the two columns. -/
  characters : (excerpt.line.toList.drop (excerpt.startColumn - 1)).take
    (excerpt.endColumn - excerpt.startColumn) = stretch
  count : excerpt.endColumn - excerpt.startColumn = stretch.length
  /-- Printed, the carets stand at the same distance from the left as the stretch, one for each
  of its characters, and a single one if it is empty. -/
  carets : ∃ margin second,
    pieces '\n' excerpt.text.toList = [margin ++ excerpt.line.toList, second] ∧
      ∀ i, second[i]? = some '^' ↔
        margin.length + (excerpt.startColumn - 1) ≤ i ∧
          i < margin.length + (excerpt.startColumn - 1) + max 1 stretch.length

/-- Behind a text that shows something of a line stands the rest of the line. -/
theorem exists_tail (text after : List Char) :
    ∃ tail, (text ++ after).takeWhile (· ≠ '\n') = text.takeWhile (· ≠ '\n') ++ tail := by
  -- what the text shows of the line is an initial part of the run without line feeds
  have hinitial : text.takeWhile (· ≠ '\n') <+: text ++ after :=
    (List.takeWhile_prefix _).trans (List.prefix_append text after)
  obtain ⟨tail, hwhole⟩ := isPrefix_run hinitial fun _ => List.mem_takeWhile_imp
  exact ⟨tail, hwhole.symm⟩

/-- The printed carets of an excerpt without a remark. -/
theorem underlines_of_stretch {excerpt : Excerpt} {stretch : List Char}
    (hfree : '\n' ∉ excerpt.line.toList) (hplain : excerpt.label? = none)
    (hcharacters : (excerpt.line.toList.drop (excerpt.startColumn - 1)).take
      (excerpt.endColumn - excerpt.startColumn) = stretch)
    (hcount : excerpt.endColumn - excerpt.startColumn = stretch.length) :
    excerpt.Underlines stretch := by
  have hremark : excerpt.remark = [] := by rw [Excerpt.remark, hplain]
  refine ⟨hcharacters, hcount, excerpt.margin, _, pieces_text hfree (by simp [hremark]), ?_⟩
  -- an empty stretch is marked by one caret all the same
  intro i
  have hcarets : excerpt.carets = max 1 stretch.length := by
    rw [Excerpt.carets, hcount, Nat.max_comm]
  rw [getElem?_caretRow (by simp [hremark]), hcarets]

/-- **The excerpt of a text in a program.**  Its span is found on the line that it begins on,
and what the text shows of the line is underlined. -/
theorem underlines_marking (before text after : List Char) :
    let source := before ++ (text ++ after)
    let span := Span.upTo (Location.start.advance before) (byteLength (before ++ text))
    ∃ excerpt tail, cut source span = .ok excerpt ∧
      (splitLines source)[span.line - 1]?
        = some (lastLine before ++ (text.takeWhile (· ≠ '\n') ++ tail)) ∧
      excerpt.Underlines (onLine (text.takeWhile (· ≠ '\n')) tail) := by
  intro source span
  obtain ⟨tail, hwhole⟩ := exists_tail text after
  obtain ⟨hfound, hcolumn, hcut⟩ := cut_text before text after
  -- the line is the one before the text, what the text shows of it, and the rest
  rw [hwhole] at hfound hcut
  refine ⟨_, tail, hcut, hfound, ?_⟩
  -- the columns of the excerpt are those of the stretch, clipped to the line
  obtain ⟨hcharacters, hcount⟩ :=
    take_drop_dropReturn (lastLine before) (text.takeWhile (· ≠ '\n')) tail
  apply underlines_of_stretch
  · rw [String.toList_ofList]
    exact lineFeed_not_mem_dropReturn (List.mem_of_getElem? hfound)
  · rfl
  · simp only [String.toList_ofList, hcolumn, Nat.add_sub_cancel_left]
    exact hcharacters
  · simp only [hcolumn]
    exact hcount

/-- **Cutting is total and exact.**  No span makes it fail in the machine, and it has an excerpt
unless it is one of the refused.  The excerpt is the line of the span, without line feed and
carriage return, and of the span of a text it underlines what the text shows of the line. -/
theorem cut_exact (source : List Char) (span : Span) :
    (span.column < 2 ^ 32 → byteLength source < 2 ^ 63 →
      cut? source span = some (cut source span)) ∧
    (∀ error, cut source span = .error error ↔ Refused source span error) ∧
    (span.start ≤ span.stop → span.stop ≤ byteLength source →
      span.line - 1 < (splitLines source).length →
      ∃ excerpt raw, cut source span = .ok excerpt ∧ excerpt.lineNumber = span.line ∧
        (splitLines source)[span.line - 1]? = some raw ∧ '\n' ∉ raw ∧
        (raw = excerpt.line.toList ++ ['\r'] ∨
          raw = excerpt.line.toList ∧ raw.getLast? ≠ some '\r')) ∧
    (∀ before text after, source = before ++ (text ++ after) →
      span = .upTo (Location.start.advance before) (byteLength (before ++ text)) →
      ∃ excerpt tail, cut source span = .ok excerpt ∧
        (splitLines source)[span.line - 1]?
          = some (lastLine before ++ (text.takeWhile (· ≠ '\n') ++ tail)) ∧
        excerpt.Underlines (onLine (text.takeWhile (· ≠ '\n')) tail)) := by
  -- the first two parts hold of every span; the third needs the line to exist, and the last
  -- one that the span is that of a text
  refine ⟨cut?_eq, fun _ => cut_eq_error_iff, ?_, ?_⟩
  · intro hordered hinside hmany
    have hfound := List.getElem?_eq_getElem hmany
    refine ⟨_, _, cut_of_line hordered hinside hfound, rfl, hfound,
      not_mem_of_mem_pieces (List.getElem_mem hmany), ?_⟩
    rw [marking, String.toList_ofList]
    exact eq_dropReturn_or _
  · rintro before text after rfl rfl
    exact underlines_marking before text after

/-- Spans that begin inside a line end: the carriage return is not underlined, and the line feed
stands two columns behind the line. -/
theorem cut_exact_lineEnd :
    let source := "é\r\nx".toList
    cut? source ⟨3, 4, 1, 3⟩ = some (cut source ⟨3, 4, 1, 3⟩) ∧
    cut source ⟨4, 3, 7, 0⟩ = .error (.reversed 4 3) ∧
    (∃ excerpt raw, cut source ⟨1, 3, 2, 0⟩ = .ok excerpt ∧ excerpt.lineNumber = 2 ∧
      (splitLines source)[1]? = some raw ∧ '\n' ∉ raw ∧
      (raw = excerpt.line.toList ++ ['\r'] ∨
        raw = excerpt.line.toList ∧ raw.getLast? ≠ some '\r')) ∧
    (∃ excerpt tail, cut source ⟨2, 5, 1, 2⟩ = .ok excerpt ∧
      (splitLines source)[0]? = some (['é'] ++ (['\r'] ++ tail)) ∧
      excerpt.Underlines (onLine ['\r'] tail)) ∧
    (∃ excerpt tail, cut source ⟨3, 4, 1, 3⟩ = .ok excerpt ∧
      (splitLines source)[0]? = some (['é', '\r'] ++ ([] ++ tail)) ∧
      excerpt.Underlines (onLine [] tail)) := by
  intro source
  refine ⟨?_, ?_, ?_, ?_, ?_⟩
  · exact (cut_exact source ⟨3, 4, 1, 3⟩).1 (by decide) (by decide)
  · exact ((cut_exact source ⟨4, 3, 7, 0⟩).2.1 _).mpr (.reversed (by decide))
  · exact (cut_exact source ⟨1, 3, 2, 0⟩).2.2.1 (by decide) (by decide) (by decide)
  · exact (cut_exact source ⟨2, 5, 1, 2⟩).2.2.2 ['é'] ['\r', '\n', 'x'] [] (by decide) (by decide)
  · exact (cut_exact source ⟨3, 4, 1, 3⟩).2.2.2 ['é', '\r'] ['\n'] ['x'] (by decide) (by decide)

end MiniPascal.Excerpt
