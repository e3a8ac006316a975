import MiniPascal.Proofs.Grammar.LongestLexeme

/-!
# Every Text Falls Apart in One Way

`Separator.split` takes the separators off a text.  What it takes is a gap of the
grammar and what it leaves begins with no separator (§1, §2), so a gap and the rest
behind it determine each other.  From this and the longest lexeme of §4 of the
previous module follow, by induction on the text and on its decomposition:

- `exists_decomposes`: every text has a decomposition;
- `Decomposes.unique`: it has no other.
-/

namespace MiniPascal.Grammar

/-! ## §1 What is split off a text -/

section Split

variable {c : Char} {text body rest gap : List Char}

theorem split_blank (hblank : isBlank c = true) :
    Separator.split (c :: text)
      = (.blank c :: (Separator.split text).1, (Separator.split text).2) := by
  rw [Separator.split]
  simp [hblank]

theorem split_comment (hclosed : '\x7d' ∉ body) :
    Separator.split ('\x7b' :: (body ++ '\x7d' :: rest))
      = (.comment body :: (Separator.split rest).1, (Separator.split rest).2) := by
  have hstops : ∀ c ∈ ('\x7d' :: rest).head?, decide (c ≠ '\x7d') = false := by simp
  have hdropped := dropWhile_run (forall_ne_of_not_mem hclosed) hstops
  rw [Separator.split]
  have hnoBlank : isBlank '\x7b' = false := by decide
  simp only [hnoBlank, Bool.false_eq_true, if_false, if_true]
  split
  · -- the closing brace is found
    rename_i hnone
    rw [hnone] at hdropped
    cases hdropped
  · rename_i d after hsome
    rw [hsome] at hdropped
    obtain ⟨-, rfl⟩ := List.cons.inj hdropped
    rw [takeWhile_run (forall_ne_of_not_mem hclosed) hstops]

theorem split_unclosed (hunclosed : '\x7d' ∉ body) :
    Separator.split ('\x7b' :: body) = ([.openComment body], []) := by
  have hdropped : body.dropWhile (· ≠ '\x7d') = [] :=
    List.dropWhile_eq_nil_iff.mpr (forall_ne_of_not_mem hunclosed)
  rw [Separator.split]
  have hnoBlank : isBlank '\x7b' = false := by decide
  simp only [hnoBlank, Bool.false_eq_true, if_false, if_true]
  split
  · rfl
  · rename_i hsome
    rw [hsome] at hdropped
    cases hdropped

theorem split_of_not_starts (hstops : ∀ c ∈ text.head?, Separator.starts c = false) :
    Separator.split text = ([], text) := by
  cases text with
  | nil => rw [Separator.split]
  | cons c text =>
    have := hstops c rfl
    simp only [Separator.starts, Bool.or_eq_false_iff, beq_eq_false_iff_ne] at this
    -- neither of the two kinds of separators begins with the character
    rw [Separator.split]
    simp [this.1, this.2]

/-- **A gap is split off whole**, and what stands behind it is split on its own. -/
theorem rest_split_gap (hgap : IsGap gap) :
    (Separator.split (gap ++ rest)).2 = (Separator.split rest).2 := by
  -- one separator at a time, as the gap is put together
  induction hgap with
  | nil => rfl
  | blank hblank _ ih => rw [List.cons_append, split_blank hblank, ih]
  -- the text is cut again behind the body, where the comment is closed
  | comment hclosed _ ih =>
    rw [List.cons_append, List.append_assoc, List.cons_append, split_comment hclosed, ih]

/-- Behind a gap nothing more is split off if no separator stands there. -/
theorem rest_split_of_not_starts (hgap : IsGap gap)
    (hstops : ∀ c ∈ rest.head?, Separator.starts c = false) :
    (Separator.split (gap ++ rest)).2 = rest := by
  rw [rest_split_gap hgap, split_of_not_starts hstops]

theorem rest_split_lastGap (hlast : IsLastGap gap) : (Separator.split gap).2 = [] := by
  cases hlast with
  | closed hgap =>
    -- at the end of the text nothing is left to split
    have : (Separator.split (gap ++ [])).2 = (Separator.split []).2 := rest_split_gap hgap
    rw [List.append_nil] at this
    rw [this, Separator.split]
  | unclosed hbefore hunclosed => rw [rest_split_gap hbefore, split_unclosed hunclosed]

/-- A run of blanks is a gap. -/
theorem isGap_blanks {blanks : List Char} (hall : ∀ c ∈ blanks, isBlank c = true) :
    IsGap blanks := by
  induction blanks with
  | nil => exact .nil
  | cons c blanks ih =>
    -- the first blank stands in front of a gap
    have hblank := hall c List.mem_cons_self
    have hrest : ∀ d ∈ blanks, isBlank d = true := fun d hd => hall d (List.mem_cons_of_mem c hd)
    exact .blank hblank (ih hrest)

/-- Behind a gap the same is left as before it. -/
theorem rest_split_drop {gap rest text : List Char} (hgap : IsGap gap)
    (hwhole : gap ++ rest = text) :
    (Separator.split (text.drop gap.length)).2 = (Separator.split text).2 := by
  rw [← hwhole, List.drop_left, rest_split_gap hgap]

end Split

/-! ## §2 What is split off is a gap -/

theorem IsLastGap.blank {c : Char} {gap : List Char} (hblank : isBlank c = true)
    (hlast : IsLastGap gap) : IsLastGap (c :: gap) := by
  cases hlast with
  | closed hgap => exact .closed (.blank hblank hgap)
  | @unclosed before body hgap hunclosed =>
    -- the gap before the open comment takes the blank in
    have hlonger : IsGap (c :: before) := .blank hblank hgap
    exact .unclosed hlonger hunclosed

theorem IsLastGap.comment {body gap : List Char} (hclosed : '\x7d' ∉ body)
    (hlast : IsLastGap gap) : IsLastGap ('\x7b' :: (body ++ '\x7d' :: gap)) := by
  cases hlast with
  | closed hgap => exact .closed (.comment hclosed hgap)
  | @unclosed before body' hgap hunclosed =>
    have := IsLastGap.unclosed (.comment hclosed hgap) hunclosed
    simpa using this

theorem brace_not_mem_takeWhile (text : List Char) : '\x7d' ∉ text.takeWhile (· ≠ '\x7d') := by
  intro hinside
  have := List.mem_takeWhile_imp hinside
  simp at this

/-- A comment is a separator, whether it is closed or not. -/
theorem rest_split_comment (rest : List Char) :
    (Separator.split (rest.drop ((rest.takeWhile (· ≠ '\x7d')).length + 1))).2
      = (Separator.split ('\x7b' :: rest)).2 := by
  have hparts := List.takeWhile_append_dropWhile (p := (· ≠ '\x7d')) (l := rest)
  have hfree := brace_not_mem_takeWhile rest
  -- the brace that closes the comment stands behind the body, if there is one at all
  cases hbehind : rest.dropWhile (· ≠ '\x7d') with
  | nil =>
    -- open: the body is all that is left, so both sides split nothing
    rw [hbehind, List.append_nil] at hparts
    rw [hparts] at hfree ⊢
    rw [split_unclosed hfree, List.drop_eq_nil_of_le (Nat.le_succ _), Separator.split]
  | cons c after =>
    obtain rfl := Separator.head_dropWhile_brace hbehind
    rw [hbehind] at hparts
    generalize rest.takeWhile (· ≠ '\x7d') = body at hparts hfree ⊢
    subst hparts
    -- closed: dropping the body and the brace is what splitting the comment leaves
    have hpassed : (body ++ '\x7d' :: after).drop (body.length + 1) = after := by
      rw [List.append_cons]
      exact List.drop_left' List.length_append
    rw [hpassed, split_comment hfree]

/-- **Only gaps are split off.**  The separators taken off a text are a gap, or its
last gap if nothing is left. -/
theorem isGap_spellAll_split (text : List Char) :
    ((Separator.split text).2 ≠ [] → IsGap (Separator.spellAll (Separator.split text).1)) ∧
      ((Separator.split text).2 = [] →
        IsLastGap (Separator.spellAll (Separator.split text).1)) := by
  -- the cases are the branches of `split`: the end, a blank, an unclosed and a closed
  -- comment, and a character that begins no separator
  fun_induction Separator.split text with
  | case1 => exact ⟨fun hleft => absurd rfl hleft, fun _ => .closed .nil⟩
  | case2 c text hblank separators rest hsplit ih =>
    rw [hsplit] at ih
    exact ⟨fun hleft => .blank hblank (ih.1 hleft), fun hnone => (ih.2 hnone).blank hblank⟩
  | case3 text hopen hblank =>
    -- the run up to the brace is the whole text, since nothing is behind it
    have hunclosed : '\x7d' ∉ text := by
      have := brace_not_mem_takeWhile text
      rwa [← List.takeWhile_append_dropWhile (p := (· ≠ '\x7d')) (l := text), hopen,
        List.append_nil]
    refine ⟨fun hleft => absurd rfl hleft, fun _ => ?_⟩
    have := IsLastGap.unclosed .nil hunclosed
    simpa [Separator.spell] using this
  | case4 text d after hclosed separators rest hsplit hblank ih =>
    rw [hsplit] at ih
    have hfree := brace_not_mem_takeWhile text
    -- the comment is spelled with its body and both of its braces
    have hshape : Separator.spellAll
        (.comment (text.takeWhile (· ≠ '\x7d')) :: separators)
          = '\x7b' :: (text.takeWhile (· ≠ '\x7d') ++ '\x7d' :: Separator.spellAll separators) := by
      simp [Separator.spell]
    rw [hshape]
    exact ⟨fun hleft => .comment hfree (ih.1 hleft), fun hnone => (ih.2 hnone).comment hfree⟩
  | case5 c text hblank hbrace => exact ⟨fun _ => .nil, fun hnone => by cases hnone⟩

/-! ## §3 There is a decomposition -/

/-- **Every text falls apart.** -/
theorem exists_decomposes (text : List Char) :
    ∃ pieces ending, Decomposes text pieces ending := by
  have hwhole := Separator.spellAll_append_of_split text
  obtain ⟨hgap, hlast⟩ := isGap_spellAll_split text
  -- the separators in front are a gap; what is left decides how it goes on
  generalize Separator.spellAll (Separator.split text).1 = before at hwhole hgap hlast
  cases hrest : (Separator.split text).2 with
  | nil =>
    -- nothing but separators
    rw [hrest, List.append_nil] at hwhole
    subst hwhole
    exact ⟨[], .finished before, .finished (hlast hrest)⟩
  | cons c rest =>
    have hisGap := hgap (by simp [hrest])
    rw [hrest] at hwhole
    cases hfound : Lexeme.first? (c :: rest) with
    | none =>
      -- what is left begins with a stray character
      have hnotStarts := Separator.not_starts_of_split hrest
      simp only [Separator.starts, Bool.or_eq_false_iff, beq_eq_false_iff_ne] at hnotStarts
      have hstray : IsStray c := ⟨hnotStarts.1, hnotStarts.2, first?_eq_none_iff.mp hfound⟩
      exact ⟨[], .stray before c rest, hwhole ▸ .stray hisGap hstray⟩
    | some lexeme =>
      have hlongest := (first?_sound hfound).1
      obtain ⟨after, hafter⟩ := hlongest.initial
      -- the lexeme has a character, so less is left behind it
      have hshorter : after.length < text.length := by
        have := List.length_pos_iff.mpr hlongest.isLexeme.ne_nil
        have := congrArg List.length hafter
        have := congrArg List.length hwhole
        simp only [List.length_append] at *
        omega
      obtain ⟨pieces, ending, hmore⟩ := exists_decomposes after
      rw [← hafter] at hlongest hwhole
      exact ⟨⟨before, lexeme.text⟩ :: pieces, ending, hwhole ▸ .lexeme hisGap hlongest hmore⟩
termination_by text.length

/-! ## §4 There is only one -/

theorem IsLongest.stops {lexeme rest : List Char} (hlongest : IsLongest lexeme (lexeme ++ rest)) :
    ∀ c ∈ (lexeme ++ rest).head?, Separator.starts c = false := by
  intro c hc
  rw [← hlongest.head?_eq] at hc
  obtain ⟨part, rfl⟩ := List.head?_eq_some_iff.mp hc
  exact hlongest.isLexeme.not_starts

theorem IsStray.stops {c : Char} (hstray : IsStray c) (rest : List Char) :
    ∀ d ∈ (c :: rest).head?, Separator.starts d = false := by
  intro d hd
  obtain rfl : c = d := by simpa using hd
  simp [Separator.starts, hstray.notBlank, hstray.notBrace]

theorem IsStray.not_longest {c : Char} {rest lexeme after : List Char} (hstray : IsStray c)
    (hsame : c :: rest = lexeme ++ after) (hlongest : IsLongest lexeme (lexeme ++ after)) :
    False := by
  -- the stray character would be the first of the lexeme
  obtain ⟨d, part, rfl⟩ := List.exists_cons_of_ne_nil hlongest.isLexeme.ne_nil
  obtain ⟨rfl, -⟩ := List.cons.inj hsame
  exact hstray.noLexeme _ hlongest.isLexeme rfl

/-- A gap and what stands behind it determine each other. -/
theorem IsGap.unique {gap gap' rest rest' : List Char} (hgap : IsGap gap) (hgap' : IsGap gap')
    (hstops : ∀ c ∈ rest.head?, Separator.starts c = false)
    (hstops' : ∀ c ∈ rest'.head?, Separator.starts c = false)
    (hsame : gap ++ rest = gap' ++ rest') : gap = gap' ∧ rest = rest' := by
  -- what is left behind a gap is computed by splitting, so it is the same for both
  have hrest : rest = rest' := by
    rw [← rest_split_of_not_starts hgap hstops, hsame, rest_split_of_not_starts hgap' hstops']
  subst hrest
  exact ⟨List.append_cancel_right hsame, rfl⟩

/-- A last gap leaves no room for anything behind a gap. -/
theorem IsLastGap.eq_nil {gap rest last : List Char} (hlast : IsLastGap last) (hgap : IsGap gap)
    (hstops : ∀ c ∈ rest.head?, Separator.starts c = false) (hsame : last = gap ++ rest) :
    rest = [] := by
  rw [← rest_split_of_not_starts hgap hstops, ← hsame, rest_split_lastGap hlast]

/-- **A text falls apart in one way only.** -/
theorem Decomposes.unique {text : List Char} {pieces pieces' : List Piece} {ending ending' : Ending}
    (hleft : Decomposes text pieces ending) (hright : Decomposes text pieces' ending') :
    pieces = pieces' ∧ ending = ending' := by
  -- whatever the other decomposition begins with stands behind the same gap, because
  -- neither a lexeme nor a stray character begins with a separator
  induction hleft generalizing pieces' ending' with
  | @finished gap hlast =>
    generalize htext : gap = text at hright
    cases hright with
    | finished => exact ⟨rfl, rfl⟩
    | stray hbefore hstray => cases hlast.eq_nil hbefore (hstray.stops _) htext
    | lexeme hbefore hlongest =>
      -- a lexeme would have to be empty
      have := hlast.eq_nil hbefore hlongest.stops htext
      exact absurd (List.append_eq_nil_iff.mp this).1 hlongest.isLexeme.ne_nil
  | @stray gap rest c hbefore hstray =>
    generalize htext : gap ++ c :: rest = text at hright
    cases hright with
    | finished hlast => cases hlast.eq_nil hbefore (hstray.stops _) htext.symm
    | stray hbefore' hstray' =>
      obtain ⟨rfl, hsame⟩ := hbefore.unique hbefore' (hstray.stops _) (hstray'.stops _) htext
      obtain ⟨rfl, rfl⟩ := List.cons.inj hsame
      exact ⟨rfl, rfl⟩
    | lexeme hbefore' hlongest =>
      obtain ⟨-, hsame⟩ := hbefore.unique hbefore' (hstray.stops _) hlongest.stops htext
      exact (hstray.not_longest hsame hlongest).elim
  | @lexeme gap lexeme rest pieces ending hbefore hlongest hmore ih =>
    generalize htext : gap ++ (lexeme ++ rest) = text at hright
    cases hright with
    | finished hlast =>
      have := hlast.eq_nil hbefore hlongest.stops htext.symm
      exact absurd (List.append_eq_nil_iff.mp this).1 hlongest.isLexeme.ne_nil
    | stray hbefore' hstray =>
      obtain ⟨-, hsame⟩ := hbefore.unique hbefore' hlongest.stops (hstray.stops _) htext
      exact (hstray.not_longest hsame.symm hlongest).elim
    | @lexeme _ lexeme' _ _ _ hbefore' hlongest' hmore' =>
      obtain ⟨rfl, hsame⟩ := hbefore.unique hbefore' hlongest.stops hlongest'.stops htext
      -- two longest lexemes of one text are the same
      obtain rfl : lexeme = lexeme' := hlongest.unique (hsame ▸ hlongest')
      obtain rfl := List.append_cancel_left hsame
      obtain ⟨rfl, rfl⟩ := ih hmore'
      exact ⟨rfl, rfl⟩

end MiniPascal.Grammar
