import MiniPascal.Location
import MiniPascal.Proofs.Text.Stretches
import MiniPascal.Text.Split
import Mathlib.Data.List.DropRight
import Mathlib.Data.List.Basic

/-!
# Lines and Columns of a Place

`Location.advance` counts lines and columns one character at a time.  Here the two
counters are read off the text before a place as a whole, and the line that holds the
place is found among the lines of the text.

- `line_advance_start`, `column_advance_start`: the counters in closed form;
- `getElem?_splitLines`: the line of a place is the last line before it, continued up
  to the next line feed.
-/

namespace MiniPascal

/-! ## §1 The counters in closed form -/

/-- The characters after the last line feed of a text. -/
def lastLine (text : List Char) : List Char := text.rtakeWhile (· ≠ '\n')

@[simp]
theorem lastLine_concat_lineFeed (text : List Char) : lastLine (text ++ ['\n']) = [] := by
  simp [lastLine]

theorem lastLine_concat {text : List Char} {c : Char} (hc : c ≠ '\n') :
    lastLine (text ++ [c]) = lastLine text ++ [c] := by
  simp [lastLine, hc]

theorem not_mem_lastLine (text : List Char) : '\n' ∉ lastLine text := by
  intro hinside
  have := List.mem_rtakeWhile_imp hinside
  simp at this

/-- The line of the place behind a text counts its line feeds. -/
theorem line_advance_start (text : List Char) :
    (Location.start.advance text).line = 1 + text.count '\n' := by
  -- a location is counted from the left, so the last character is the one to look at
  induction text using List.reverseRecOn with
  | nil => rfl
  | append_singleton text c ih =>
    rw [Location.advance_append, Location.advance_cons, Location.advance_nil, Location.next]
    by_cases hc : c = '\n'
    · simp [hc, ih, Nat.add_assoc]
    · simp [hc, ih]

/-- The column of the place behind a text counts the characters of its last line. -/
theorem column_advance_start (text : List Char) :
    (Location.start.advance text).column = 1 + (lastLine text).length := by
  induction text using List.reverseRecOn with
  | nil => rfl
  | append_singleton text c ih =>
    rw [Location.advance_append, Location.advance_cons, Location.advance_nil, Location.next]
    by_cases hc : c = '\n'
    · simp [hc]
    · simp [hc, ih, lastLine_concat hc, Nat.add_assoc]

theorem offset_advance_start (text : List Char) :
    (Location.start.advance text).offset = byteLength text := by
  rw [Location.advance_offset]
  exact Nat.zero_add _

/-! ## §2 The line of a place -/

/-- A text is its last line, or ends in it after a line feed. -/
theorem eq_lastLine_or (text : List Char) :
    ('\n' ∉ text ∧ lastLine text = text) ∨ ∃ above, text = above ++ '\n' :: lastLine text := by
  induction text using List.reverseRecOn with
  | nil => exact .inl ⟨List.not_mem_nil, rfl⟩
  | append_singleton text c ih =>
    by_cases hc : c = '\n'
    · -- the line feed is the last character, and the last line is empty
      exact .inr ⟨text, by simp [hc]⟩
    · rw [lastLine_concat hc]
      rcases ih with ⟨hnone, hself⟩ | ⟨above, habove⟩
      · -- still the first line: the character belongs to it
        refine .inl ⟨?_, by rw [hself]⟩
        simp [hnone, Ne.symm hc]
      · refine .inr ⟨above, ?_⟩
        conv_lhs => rw [habove]
        simp

/-- A separator splits the pieces of a text into those before and those behind it. -/
theorem pieces_append_separator (separator : Char) (left right : List Char) :
    pieces separator (left ++ separator :: right)
      = pieces separator left ++ pieces separator right := by
  -- the separator ends the last piece of `left`, which the first character may belong to
  induction left with
  | nil => simp [pieces]
  | cons c left ih =>
    by_cases hc : c = separator
    · simp [pieces, hc, ih]
    · cases hmore : pieces separator left with
      -- the rest of the text has a piece, the one that the character is put in front of
      | nil => exact absurd hmore (pieces_ne_nil separator left)
      | cons piece more => simp [pieces, hc, ih, hmore]

theorem pieces_of_not_mem {separator : Char} {text : List Char} (hfree : separator ∉ text) :
    pieces separator text = [text] := by
  induction text with
  | nil => rfl
  | cons c text ih =>
    obtain ⟨hc, hmore⟩ := not_or.mp (mt List.mem_cons.mpr hfree)
    rw [pieces, if_neg (Ne.symm hc), ih hmore]

/-- The first piece of a text ends before the first separator. -/
theorem head?_pieces (separator : Char) (text : List Char) :
    (pieces separator text).head? = some (text.takeWhile (· ≠ separator)) := by
  induction text with
  | nil => rfl
  | cons c text ih =>
    by_cases hc : c = separator
    · simp [pieces, hc]
    · -- the character is put in front of the first piece of the rest
      cases hmore : pieces separator text with
      | nil => simp [hmore] at ih
      | cons piece more =>
        simp only [hmore, List.head?_cons, Option.some.injEq] at ih
        simp [pieces, hc, hmore, ih]

/-- A piece is a stretch of the text. -/
theorem isInfix_of_mem_pieces {separator : Char} {text piece : List Char}
    (hamong : piece ∈ pieces separator text) : piece <:+: text := by
  induction text generalizing piece with
  | nil =>
    obtain rfl := List.mem_singleton.mp hamong
    exact List.infix_rfl
  | cons c text ih =>
    -- the first piece stands at the front, and the others behind the first character
    have hfirst := head?_pieces separator (c :: text)
    by_cases hc : c = separator
    · rw [pieces, if_pos hc] at hamong
      rcases List.mem_cons.mp hamong with rfl | hamong
      · exact List.nil_infix
      · exact List.infix_cons (ih hamong)
    · cases hmore : pieces separator text with
      | nil => exact absurd hmore (pieces_ne_nil separator text)
      | cons start more =>
        rw [pieces, if_neg hc, hmore] at hamong hfirst
        rcases List.mem_cons.mp hamong with rfl | hamong
        · rw [Option.some.inj hfirst]
          exact (List.takeWhile_prefix _).isInfix
        · exact List.infix_cons (ih (hmore ▸ List.mem_cons_of_mem _ hamong))

/-- **The line of a place.**  Counting the line feeds before a place finds the line that
holds it: the last line before the place, continued up to the next line feed. -/
theorem getElem?_splitLines (before after : List Char) :
    (splitLines (before ++ after))[before.count '\n']?
      = some (lastLine before ++ after.takeWhile (· ≠ '\n')) := by
  -- the line starts behind the last line feed before the place
  have hhead := head?_pieces '\n' (lastLine before ++ after)
  rw [List.takeWhile_append_of_pos (forall_ne_of_not_mem (not_mem_lastLine before))] at hhead
  -- the place is on the first line, or there are lines above
  rcases eq_lastLine_or before with ⟨hnone, hself⟩ | ⟨above, habove⟩
  · rw [hself] at hhead ⊢
    rw [List.count_eq_zero.mpr hnone, ← List.head?_eq_getElem?]
    exact hhead
  · -- the lines above the last one are as many as the line feeds before it
    have hcount : before.count '\n' = (pieces '\n' above).length := by
      rw [length_pieces, habove, List.count_append, List.count_cons_self,
        List.count_eq_zero.mpr (not_mem_lastLine before)]
    have hpieces : splitLines (before ++ after)
        = pieces '\n' above ++ pieces '\n' (lastLine before ++ after) := by
      conv_lhs => rw [habove]
      rw [splitLines, List.append_assoc, List.cons_append, pieces_append_separator]
    rw [hpieces, hcount, List.getElem?_append_right (Nat.le_refl _), Nat.sub_self,
      ← List.head?_eq_getElem?]
    exact hhead

/-! ## §3 Carriage returns -/

/-- A line loses its carriage return at the end of its last part. -/
theorem dropReturn_append (left : List Char) {right : List Char} (hinside : right ≠ []) :
    dropReturn (left ++ right) = left ++ dropReturn right := by
  rw [dropReturn, dropReturn, List.getLast?_append_of_ne_nil _ hinside]
  split
  · exact List.dropLast_append_of_ne_nil hinside
  · rfl

/-- One carriage return is dropped, if the line ends with one. -/
theorem eq_dropReturn_or (line : List Char) :
    line = dropReturn line ++ ['\r'] ∨ line = dropReturn line ∧ line.getLast? ≠ some '\r' := by
  unfold dropReturn
  split
  · rename_i hlast
    exact .inl (List.dropLast_append_getLast? '\r' hlast).symm
  · rename_i hother
    exact .inr ⟨rfl, hother⟩

theorem dropReturn_sublist (line : List Char) : List.Sublist (dropReturn line) line := by
  unfold dropReturn
  split
  · exact List.dropLast_sublist line
  · exact List.Sublist.refl line

theorem length_dropReturn_le (line : List Char) : (dropReturn line).length ≤ line.length :=
  (dropReturn_sublist line).length_le

/-- A line holds no line feed, and dropping its last character adds none. -/
theorem lineFeed_not_mem_dropReturn {text line : List Char} (hamong : line ∈ splitLines text) :
    '\n' ∉ dropReturn line :=
  fun hinside => not_mem_of_mem_pieces hamong ((dropReturn_sublist line).subset hinside)

/-- A carriage return at the end of a line is dropped behind any other character. -/
theorem exists_dropReturn {c : Char} (hnotReturn : c ≠ '\r') (left right : List Char) :
    ∃ more, dropReturn (left ++ c :: right) = left ++ c :: more := by
  unfold dropReturn
  split
  · rename_i hlast
    cases right with
    | nil =>
      -- the character itself is the last one
      rw [List.getLast?_append, List.getLast?_singleton] at hlast
      exact absurd (Option.some.inj hlast) hnotReturn
    | cons d right =>
      refine ⟨(d :: right).dropLast, ?_⟩
      rw [List.dropLast_append_of_ne_nil (List.cons_ne_nil _ _)]
      rfl
  · exact ⟨right, rfl⟩

end MiniPascal
