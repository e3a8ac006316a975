import MiniPascal.Proofs.Text.Places

/-!
# Line Ends in Two Styles

A line may end with a line feed alone or with a carriage return before it.  `addReturns`
turns a text of the first style into one of the second.  Nothing that a user is told about a
place depends on the style:

- `advance_addReturns`: lines and columns stay, and an offset grows by one byte for each line
  above;
- `map_dropReturn_splitLines`: without their carriage returns the lines are the same.
-/

namespace MiniPascal

/-! ## §1 Carriage returns before line feeds -/

/-- The text with a carriage return before each line feed. -/
def addReturns (text : List Char) : List Char :=
  text.flatMap fun c => if c = '\n' then ['\r', '\n'] else [c]

variable {c : Char} {text : List Char}

@[simp]
theorem addReturns_nil : addReturns [] = [] := rfl

@[simp]
theorem addReturns_cons_lineFeed (text : List Char) :
    addReturns ('\n' :: text) = '\r' :: '\n' :: addReturns text := rfl

@[simp]
theorem addReturns_cons (hnotFeed : c ≠ '\n') (text : List Char) :
    addReturns (c :: text) = c :: addReturns text := by
  simp [addReturns, hnotFeed]

@[simp]
theorem addReturns_append (left right : List Char) :
    addReturns (left ++ right) = addReturns left ++ addReturns right := by
  simp [addReturns]

/-- On a single line there is nothing to add. -/
theorem addReturns_of_not_mem (hsingle : '\n' ∉ text) : addReturns text = text := by
  induction text with
  | nil => rfl
  | cons c text ih =>
    -- no character is a line feed, so each stays alone
    obtain ⟨hnotFeed, hothers⟩ := not_or.mp (mt List.mem_cons.mpr hsingle)
    rw [addReturns_cons (Ne.symm hnotFeed), ih hothers]

/-- Nothing but carriage returns is added. -/
theorem mem_of_mem_addReturns (hinside : c ∈ addReturns text) (hnotReturn : c ≠ '\r') :
    c ∈ text := by
  obtain ⟨d, hamong, hmade⟩ := List.mem_flatMap.mp hinside
  split at hmade
  · -- of the two characters for a line feed only the second one is no return
    rename_i hfeed
    simp only [List.mem_cons, hnotReturn, false_or, List.not_mem_nil, or_false] at hmade
    rwa [hmade, ← hfeed]
  · rwa [List.mem_singleton.mp hmade]

/-- A text begins with the same character in both styles, or with a line end. -/
theorem head?_addReturns (hfirst : c ∈ (addReturns text).head?) : c = '\r' ∨ c ∈ text.head? := by
  cases text with
  | nil => exact .inr hfirst
  | cons d text =>
    by_cases hfeed : d = '\n'
    · subst hfeed
      exact .inl (Option.some.inj hfirst).symm
    · rw [addReturns_cons hfeed] at hfirst
      exact .inr hfirst

/-! ## §2 Places -/

namespace Location

/-- The same place when each line above ends with one byte more. -/
def withReturns (here : Location) : Location :=
  ⟨here.offset + (here.line - 1), here.line, here.column⟩

theorem line_le_advance (here : Location) (text : List Char) :
    here.line ≤ (here.advance text).line := by
  induction text generalizing here with
  | nil => exact Nat.le_refl _
  | cons c text ih =>
    refine Nat.le_trans ?_ (ih (here.next c))
    -- a step leads to the next line or stays on the same one
    unfold next
    split
    · exact Nat.le_succ _
    · exact Nat.le_refl _

/-- Without a line feed the line stays the same. -/
theorem line_advance_of_not_mem {text : List Char} (hsingle : '\n' ∉ text) (here : Location) :
    (here.advance text).line = here.line := by
  induction text generalizing here with
  | nil => rfl
  | cons c text ih =>
    obtain ⟨hnotFeed, hothers⟩ := not_or.mp (mt List.mem_cons.mpr hsingle)
    rw [advance_cons, ih hothers, next, if_neg (Ne.symm hnotFeed)]

/-- **Lines and columns stay**, as a carriage return is the last character of its line. -/
theorem advance_addReturns {here : Location} (hcounted : 1 ≤ here.line) (text : List Char) :
    here.withReturns.advance (addReturns text) = (here.advance text).withReturns := by
  induction text generalizing here with
  | nil => rfl
  | cons c text ih =>
    by_cases hfeed : c = '\n'
    · subst hfeed
      -- the return takes a column, which the line feed behind it takes back
      have hstep : (here.withReturns.next '\r').next '\n' = (here.next '\n').withReturns := by
        simp only [next, withReturns, if_true, show ('\r' = '\n') = False by decide, if_false,
          mk.injEq, and_true]
        have : '\r'.utf8Size = 1 := rfl
        omega
      rw [addReturns_cons_lineFeed, advance_cons, advance_cons, advance_cons, hstep]
      exact ih (Nat.le_add_left ..)
    · -- on a line the two places move on together, as the lines above do not change
      have hstep : here.withReturns.next c = (here.next c).withReturns := by
        simp only [next, withReturns, hfeed, if_false, mk.injEq, and_true]
        omega
      rw [addReturns_cons hfeed, advance_cons, advance_cons, hstep]
      apply ih
      rw [next, if_neg hfeed]
      exact hcounted

end Location

/-! ## §3 Lines -/

theorem exists_line (text : List Char) : ∃ line more, pieces '\n' text = line :: more :=
  ⟨_, List.head?_eq_some_iff.mp (head?_pieces '\n' text)⟩

/-- Only the end of a line matters for its carriage return. -/
theorem dropReturn_cons (hnotReturn : c ≠ '\r') (line : List Char) :
    dropReturn (c :: line) = c :: dropReturn line := by
  -- the last character is the same unless the line was empty
  cases line with
  | nil => simp [dropReturn, hnotReturn]
  | cons d line =>
    unfold dropReturn
    rw [List.getLast?_cons_cons]
    split <;> rfl

/-- **The lines are the same** in both styles, without the carriage returns at their ends. -/
theorem map_dropReturn_splitLines (hplain : '\r' ∉ text) :
    (splitLines (addReturns text)).map dropReturn = (splitLines text).map dropReturn := by
  unfold splitLines
  induction text with
  | nil => rfl
  | cons c text ih =>
    obtain ⟨hnotReturn, hothers⟩ := not_or.mp (mt List.mem_cons.mpr hplain)
    have hmore := ih hothers
    by_cases hfeed : c = '\n'
    · -- the line that ends here is a carriage return and nothing else so far
      subst hfeed
      have halone : dropReturn ['\r'] = dropReturn [] := rfl
      simp [pieces, halone, hmore]
    · -- a text has one line at least, and the character is put in front of it
      obtain ⟨line, more', hlines⟩ := exists_line text
      obtain ⟨line', more'', hlines'⟩ := exists_line (addReturns text)
      rw [hlines, hlines', List.map_cons, List.map_cons, List.cons.injEq] at hmore
      rw [addReturns_cons hfeed, pieces, pieces, if_neg hfeed, if_neg hfeed, hlines, hlines']
      simp [dropReturn_cons (Ne.symm hnotReturn), hmore]

end MiniPascal
