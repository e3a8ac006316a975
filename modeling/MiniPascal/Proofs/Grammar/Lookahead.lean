import MiniPascal.Proofs.Grammar.Decomposition

/-!
# One Character of Lookahead

How far a lexeme goes is settled by the single character behind it: either this character
continues the lexeme, or no longer lexeme stands there (`isLongest_append_iff`).  The
reason is that lexemes grow one character at a time (`IsLexeme.of_isPrefix`).

So nothing that is written behind that character can change the lexeme, and a separator
never continues one (`IsLexeme.isLongest_append`).
-/

namespace MiniPascal.Grammar

variable {lexeme part rest gap : List Char}

/-! ## §1 Lexemes grow one character at a time -/

/-- **Every initial part of a lexeme is a lexeme**, unless it is empty. -/
theorem IsLexeme.of_isPrefix (hlexeme : IsLexeme lexeme) (hinitial : part <+: lexeme)
    (hinside : part ≠ []) : IsLexeme part := by
  cases hlexeme with
  | integer _ hall => exact .integer hinside fun c hc => hall c (hinitial.subset hc)
  | @real whole fraction hdigits hleft hright =>
    -- the part ends before the point, at it, or among the digits behind it
    rcases List.prefix_or_prefix_of_prefix hinitial (List.prefix_append whole _) with
      hbefore | ⟨more, rfl⟩
    · exact .integer hinside fun c hc => hleft c (hbefore.subset hc)
    · rcases List.prefix_cons_iff.mp ((List.prefix_append_right_inj whole).mp hinitial) with
        rfl | ⟨more, rfl, hbehind⟩
      · rw [List.append_nil]
        exact .integer hdigits hleft
      · exact .real hdigits hleft fun c hc => hright c (hbehind.subset hc)
  -- a word and a mark keep their first character, which is all that makes them what they are
  | word hletter hall =>
    rcases List.prefix_cons_iff.mp hinitial with rfl | ⟨more, rfl, hbehind⟩
    · exact absurd rfl hinside
    · exact .word hletter fun c hc => hall c (hbehind.subset hc)
  | assign =>
    rcases List.prefix_cons_iff.mp hinitial with rfl | ⟨more, rfl, hbehind⟩
    · exact absurd rfl hinside
    · -- of the assignment sign either the colon is left or all of it
      rcases List.prefix_cons_iff.mp hbehind with rfl | ⟨none, rfl, hended⟩
      · exact .mark (by decide)
      · obtain rfl := List.prefix_nil.mp hended
        exact .assign
  | mark hknown =>
    rcases List.prefix_cons_iff.mp hinitial with rfl | ⟨more, rfl, hended⟩
    · exact absurd rfl hinside
    · obtain rfl := List.prefix_nil.mp hended
      exact .mark hknown

/-- **One character decides.**  A lexeme is the longest one exactly if the character behind
it, if there is any, does not continue it. -/
theorem isLongest_append_iff (hlexeme : IsLexeme lexeme) :
    IsLongest lexeme (lexeme ++ rest) ↔ ∀ c ∈ rest.head?, ¬ IsLexeme (lexeme ++ [c]) := by
  constructor
  · intro hlongest c hfirst hcontinued
    obtain ⟨more, rfl⟩ := List.head?_eq_some_iff.mp hfirst
    -- with the next character there would be a longer lexeme in the text
    have hlonger := hlongest.longest _ ⟨more, by simp⟩ hcontinued
    rw [List.length_append, List.length_singleton] at hlonger
    omega
  · intro hapart
    refine ⟨List.prefix_append lexeme rest, hlexeme, ?_⟩
    intro other hinitial hother
    by_contra hlonger
    cases rest with
    | nil =>
      -- at the end of the text nothing is left to be longer with
      have hshort := hinitial.length_le
      rw [List.append_nil] at hshort
      exact hlonger hshort
    | cons c rest =>
      -- a longer lexeme would have one as an initial part that is longer by one character
      have hstep : lexeme ++ [c] <+: lexeme ++ c :: rest := ⟨rest, by simp⟩
      have hthrough : lexeme ++ [c] <+: other := by
        refine List.prefix_of_prefix_length_le hstep hinitial ?_
        rw [List.length_append, List.length_singleton]
        omega
      exact hapart c rfl (hother.of_isPrefix hthrough (by simp))

/-- What stands behind the next character has no part in how far a lexeme goes. -/
theorem IsLongest.append (hlongest : IsLongest lexeme (lexeme ++ rest)) (hinside : rest ≠ [])
    (more : List Char) : IsLongest lexeme (lexeme ++ (rest ++ more)) := by
  have hapart := (isLongest_append_iff hlongest.isLexeme).mp hlongest
  refine (isLongest_append_iff hlongest.isLexeme).mpr ?_
  -- the next character is the same, and it alone decides
  rwa [List.head?_append_of_ne_nil _ hinside]

/-! ## §2 Separators continue no lexeme -/

theorem isLexeme_singleton_of_isAlphanum {c : Char} (halphanum : c.isAlphanum = true) :
    IsLexeme [c] := by
  rcases Bool.or_eq_true_iff.mp halphanum with hletter | hdigit
  · exact .word hletter (by simp)
  · exact .integer (by simp) (by simpa using hdigit)

/-- **No character of a lexeme begins a separator.** -/
theorem IsLexeme.not_starts_of_mem (hlexeme : IsLexeme lexeme) {c : Char} (hinside : c ∈ lexeme) :
    Separator.starts c = false := by
  -- but for the equals sign, the character is a lexeme when it stands alone
  have hdigits {text : List Char} (hall : ∀ d ∈ text, d.isDigit = true) (hamong : c ∈ text) :
      Separator.starts c = false := by
    refine (isLexeme_singleton_of_isAlphanum ?_).not_starts
    exact Bool.or_eq_true_iff.mpr (.inr (hall c hamong))
  cases hlexeme with
  | integer _ hall => exact hdigits hall hinside
  | real _ hleft hright =>
    rcases List.mem_append.mp hinside with hdigit | hbehind
    · exact hdigits hleft hdigit
    · rcases List.mem_cons.mp hbehind with rfl | hdigit
      · decide
      · exact hdigits hright hdigit
  | word hletter hall =>
    rcases List.mem_cons.mp hinside with rfl | hmore
    · exact (IsLexeme.word hletter hall).not_starts
    · exact (isLexeme_singleton_of_isAlphanum (hall c hmore)).not_starts
  | assign =>
    rcases List.mem_cons.mp hinside with rfl | hlast
    · decide
    · rw [List.mem_singleton.mp hlast]
      decide
  | mark hknown => exact (IsLexeme.mark (List.mem_singleton.mp hinside ▸ hknown)).not_starts

/-- **No lexeme has a blank in it.** -/
theorem IsLexeme.isBlank_of_mem (hlexeme : IsLexeme lexeme) {c : Char} (hinside : c ∈ lexeme) :
    isBlank c = false :=
  (Bool.or_eq_false_iff.mp (hlexeme.not_starts_of_mem hinside)).1

/-- A lexeme ends at the end of the text or at a separator at the latest. -/
theorem IsLexeme.isLongest_append (hlexeme : IsLexeme lexeme)
    (hended : ∀ c ∈ rest.head?, Separator.starts c = true) : IsLongest lexeme (lexeme ++ rest) := by
  refine (isLongest_append_iff hlexeme).mpr ?_
  intro c hfirst hcontinued
  -- a lexeme that goes on with a separator would have it inside
  have hlast : c ∈ lexeme ++ [c] := List.mem_append_right lexeme (List.mem_singleton_self c)
  have hinside := hcontinued.not_starts_of_mem hlast
  rw [hended c hfirst] at hinside
  cases hinside

/-! ## §3 Gaps and open comments -/

/-- Two gaps are one. -/
theorem IsGap.append {more : List Char} (hgap : IsGap gap) (hfurther : IsGap more) :
    IsGap (gap ++ more) := by
  induction hgap with
  | nil => exact hfurther
  | blank hblank _ ih => exact .blank hblank ih
  | comment hclosed _ ih =>
    rw [List.cons_append, List.append_assoc, List.cons_append]
    exact .comment hclosed ih

/-- A gap begins with a separator. -/
theorem IsGap.starts (hgap : IsGap gap) : ∀ c ∈ gap.head?, Separator.starts c = true := by
  intro c hfirst
  cases hgap with
  | nil => cases hfirst
  | blank hblank =>
    obtain rfl := Option.some.inj hfirst
    simp [Separator.starts, hblank]
  | comment =>
    obtain rfl := Option.some.inj hfirst
    decide

/-- **A text ends inside a comment** that is never closed. -/
def EndsOpen (text : List Char) : Prop :=
  ∃ pieces gap body, Decomposes text pieces (.finished (gap ++ '\x7b' :: body)) ∧ IsGap gap ∧
    '\x7d' ∉ body

/-- A last gap is a gap unless it has an open comment in it. -/
theorem IsLastGap.isGap (hlast : IsLastGap gap) (hclosed : ¬ EndsOpen gap) : IsGap gap := by
  cases hlast with
  | closed hgap => exact hgap
  | @unclosed before body hgap hunclosed =>
    exact absurd ⟨[], before, body, .finished (.unclosed hgap hunclosed), hgap, hunclosed⟩ hclosed

/-- What ends inside a comment still does so with a lexeme before it. -/
theorem EndsOpen.behind (hended : EndsOpen rest) (hbefore : IsGap gap)
    (hlongest : IsLongest lexeme (lexeme ++ rest)) : EndsOpen (gap ++ (lexeme ++ rest)) := by
  obtain ⟨pieces, last, body, hparts, hgap, hunclosed⟩ := hended
  -- the lexeme is one more piece in front, and the ending stays
  exact ⟨_, last, body, .lexeme hbefore hlongest hparts, hgap, hunclosed⟩

/-- A comment cannot be both closed and open. -/
theorem not_isGap_of_unclosed {body : List Char} (hbefore : IsGap gap) (hunclosed : '\x7d' ∉ body) :
    ¬ IsGap (gap ++ '\x7b' :: body) := by
  -- a letter behind a gap is left over, and one behind an open comment belongs to it
  intro hgap
  have hstops : Separator.starts 'a' = false :=
    (isLexeme_singleton_of_isAlphanum (by decide)).not_starts
  have hfree : ∀ c ∈ ['a'].head?, Separator.starts c = false := by
    simpa using hstops
  have hletter := @rest_split_gap ['a'] _ hgap
  have hmore : '\x7d' ∉ body ++ ['a'] := by simpa using hunclosed
  rw [List.append_assoc, rest_split_gap hbefore, List.cons_append, split_unclosed hmore,
    split_of_not_starts hfree] at hletter
  cases hletter

/-- A text that ends with a gap does not end inside a comment. -/
theorem Decomposes.not_endsOpen {text : List Char} {pieces : List Piece}
    (hparts : Decomposes text pieces (.finished gap)) (hgap : IsGap gap) : ¬ EndsOpen text := by
  rintro ⟨others, before, body, hparts', hgap', hunclosed⟩
  -- a text has one ending, which would be both a gap and an open comment
  obtain ⟨-, hsame⟩ := hparts.unique hparts'
  obtain rfl := Ending.finished.inj hsame
  exact not_isGap_of_unclosed hgap' hunclosed hgap

end MiniPascal.Grammar
