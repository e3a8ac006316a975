/-!
# Splitting Text

A separating character splits a text into pieces: one more than there are
separators, so the empty text is one empty piece.  Lines are the pieces between
line feeds.
-/

namespace MiniPascal

/-! ## §1 Pieces -/

/-- The pieces of a text between the occurrences of a character. -/
def pieces (separator : Char) : List Char → List (List Char)
  | [] => [[]]
  | c :: text =>
    if c = separator then [] :: pieces separator text
    else match pieces separator text with
      | [] => [[c]]
      | piece :: more => (c :: piece) :: more

/-- There is one piece more than there are separators. -/
theorem length_pieces (separator : Char) (text : List Char) :
    (pieces separator text).length = text.count separator + 1 := by
  induction text with
  | nil => rfl
  | cons c text ih =>
      by_cases hc : c = separator
      · simp [pieces, hc, ih]
      · cases hmore : pieces separator text with
        | nil => simp [hmore] at ih
        | cons piece more => simp [pieces, hc, hmore, ← ih]

/-- A text has one piece at least. -/
theorem pieces_ne_nil (separator : Char) (text : List Char) : pieces separator text ≠ [] :=
  List.ne_nil_of_length_eq_add_one (length_pieces separator text)

theorem not_mem_of_mem_pieces {separator : Char} {text piece : List Char}
    (h : piece ∈ pieces separator text) : separator ∉ piece := by
  induction text generalizing piece with
  | nil => simp_all [pieces]
  | cons c text ih =>
      by_cases hc : c = separator
      · simp only [pieces, hc, if_true, List.mem_cons] at h
        rcases h with rfl | h
        · simp
        · exact ih h
      · cases hmore : pieces separator text with
        | nil => exact absurd hmore (pieces_ne_nil separator text)
        | cons first more =>
            simp only [pieces, hc, if_false, hmore, List.mem_cons] at h
            rcases h with rfl | h
            · have := ih (hmore ▸ List.mem_cons_self)
              simp [this, Ne.symm hc]
            · exact ih (hmore ▸ List.mem_cons_of_mem _ h)

/-! ## §2 Lines -/

def splitLines (text : List Char) : List (List Char) := pieces '\n' text

/-- A line without the carriage return at its end, if there is one. -/
def dropReturn (line : List Char) : List Char :=
  if line.getLast? = some '\r' then line.dropLast else line

/-! ## §3 Margins -/

/-- A text without the characters at its two ends that satisfy `p`. -/
def trimWhile (p : Char → Bool) (text : List Char) : List Char :=
  ((text.dropWhile p).reverse.dropWhile p).reverse

end MiniPascal
