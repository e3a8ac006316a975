import MiniPascal.Proofs.Grammar.Lookahead

/-!
# Letters in Either Case

Two texts may differ in the case of their ASCII letters and in nothing else.  Such texts are
made of the same gaps and lexemes, and a lexeme denotes the same token in both, except that a
name is spelled as it is written.

A character that is changed at all is a letter, and so is what it is changed to (§1).  All
that the grammar asks of a letter holds of every letter, which is carried over first to
lexemes (§3) and then to what stands between them (§4).
-/

namespace MiniPascal

open Grammar

/-! ## §1 Characters -/

/-- The same character, or the same ASCII letter in another case. -/
def SameLetter (c d : Char) : Prop := c.toUpper = d.toUpper

instance (c d : Char) : Decidable (SameLetter c d) :=
  inferInstanceAs (Decidable (c.toUpper = d.toUpper))

namespace SameLetter

variable {c d : Char}

/-- **Only letters are changed**, and only into letters. -/
theorem eq_or_isAlpha (hsame : SameLetter c d) :
    c = d ∨ (c.isAlpha = true ∧ d.isAlpha = true) := by
  rcases toUpper_cases c with hleft | ⟨hleft, hupper⟩ <;>
    rcases toUpper_cases d with hright | ⟨hright, hupper'⟩
  · exact .inl (hleft.symm.trans (hsame.trans hright))
  · -- the one is the other's upper case
    rw [← hsame, hleft] at hupper'
    exact .inr ⟨Bool.or_eq_true_iff.mpr (.inl hupper'), Bool.or_eq_true_iff.mpr (.inr hright)⟩
  · rw [hsame, hright] at hupper
    exact .inr ⟨Bool.or_eq_true_iff.mpr (.inr hleft), Bool.or_eq_true_iff.mpr (.inl hupper)⟩
  · exact .inr ⟨Bool.or_eq_true_iff.mpr (.inr hleft), Bool.or_eq_true_iff.mpr (.inr hright)⟩

/-- The Kelvin sign is no letter in this sense, although its lower case is one. -/
example : ¬ SameLetter '\u212a' 'k' := by decide

/-- What is the same for all letters is the same for both characters. -/
theorem congr {α : Type} {f : Char → α} (x : α) (hsame : SameLetter c d)
    (hletters : ∀ e : Char, e.isAlpha = true → f e = x) : f c = f d := by
  -- a character is unchanged, or both are letters and have the one value that letters have
  rcases hsame.eq_or_isAlpha with rfl | ⟨hleft, hright⟩
  · rfl
  · rw [hletters c hleft, hletters d hright]

theorem eq_of_not_isAlpha (hsame : SameLetter c d) (hother : c.isAlpha = false) : c = d := by
  rcases hsame.eq_or_isAlpha with rfl | ⟨hletter, -⟩
  · rfl
  · rw [hother] at hletter
    cases hletter

theorem isAlpha_eq (hsame : SameLetter c d) : c.isAlpha = d.isAlpha :=
  hsame.congr true fun _ hletter => hletter

theorem isAlphanum_eq (hsame : SameLetter c d) : c.isAlphanum = d.isAlphanum :=
  hsame.congr true fun _ hletter => isAlphanum_of_isAlpha hletter

theorem isBlank_eq (hsame : SameLetter c d) : isBlank c = isBlank d :=
  hsame.congr false fun _ hletter => isBlank_of_isAlpha hletter

/-- A letter takes one byte and one column. -/
theorem next_eq (hsame : SameLetter c d) (here : Location) : here.next c = here.next d := by
  apply hsame.congr ⟨here.offset + 1, here.line, here.column + 1⟩
  intro e hletter
  -- no letter is a line feed, and all letters are ASCII characters
  have hfeed : e ≠ '\n' := by
    rintro rfl
    cases hletter
  have hsize : e.utf8Size = 1 := by
    refine Char.utf8Size_eq_one_iff.mpr ?_
    rcases Bool.or_eq_true_iff.mp hletter with hupper | hlower
    · exact UInt32.le_trans (of_decide_eq_true hupper).2 (by decide)
    · exact UInt32.le_trans (of_decide_eq_true (Bool.and_eq_true_iff.mp hlower).2) (by decide)
  rw [Location.next, if_neg hfeed, hsize]

end SameLetter

/-! ## §2 Texts -/

/-- The same text but for the case of its ASCII letters. -/
def SameLetters (left right : List Char) : Prop :=
  left.map Char.toUpper = right.map Char.toUpper

theorem upperCase_eq_iff (left right : String) :
    upperCase left = upperCase right ↔ SameLetters left.toList right.toList := by
  unfold upperCase SameLetters
  rw [← String.toList_inj, String.toList_ofList, String.toList_ofList]

namespace SameLetters

variable {c : Char} {left right more text : List Char}

theorem exists_cons (hsame : SameLetters (c :: left) text) :
    ∃ d right, text = d :: right ∧ SameLetter c d ∧ SameLetters left right := by
  obtain ⟨d, right, rfl, hfirst, hrest⟩ := List.map_eq_cons_iff.mp (Eq.symm hsame)
  exact ⟨d, right, rfl, hfirst.symm, hrest.symm⟩

theorem exists_append (hsame : SameLetters (left ++ more) text) :
    ∃ right rest, text = right ++ rest ∧ SameLetters left right ∧ SameLetters more rest := by
  unfold SameLetters at hsame
  rw [List.map_append] at hsame
  obtain ⟨right, rest, rfl, hfirst, hsecond⟩ := List.map_eq_append_iff.mp hsame.symm
  exact ⟨right, rest, rfl, hfirst.symm, hsecond.symm⟩

theorem append {rest : List Char} (hfirst : SameLetters left right)
    (hsecond : SameLetters more rest) : SameLetters (left ++ more) (right ++ rest) := by
  unfold SameLetters at *
  rw [List.map_append, List.map_append, hfirst, hsecond]

theorem eq_nil (hsame : SameLetters [] text) : text = [] :=
  List.map_eq_nil_iff.mp (Eq.symm hsame)

/-- What holds of every character of one text holds of the other. -/
theorem forall_mem {p : Char → Prop} (hsame : SameLetters left right)
    (hkeeps : ∀ c d, SameLetter c d → p c → p d) (hall : ∀ c ∈ left, p c) : ∀ d ∈ right, p d := by
  -- character by character, as the two texts are equally long
  induction left generalizing right with
  | nil =>
    obtain rfl := hsame.eq_nil
    simp
  | cons c left ih =>
    obtain ⟨d, right, rfl, hfirst, hrest⟩ := hsame.exists_cons
    obtain ⟨hhead, hothers⟩ := List.forall_mem_cons.mp hall
    exact List.forall_mem_cons.mpr ⟨hkeeps c d hfirst hhead, ih hrest hothers⟩

/-- What is not a letter stands in neither text or in both. -/
theorem not_mem (hsame : SameLetters left right) (hother : c.isAlpha = false) (hfree : c ∉ left) :
    c ∉ right := by
  have hapart : ∀ d ∈ left, d ≠ c := fun d hamong => ne_of_mem_of_not_mem hamong hfree
  have hkeeps : ∀ d e, SameLetter d e → d ≠ c → e ≠ c := by
    rintro d e hletter haway rfl
    exact haway (SameLetter.eq_of_not_isAlpha hletter.symm hother).symm
  -- being another character than this one is kept by a change of case
  intro hinside
  exact hsame.forall_mem hkeeps hapart c hinside rfl

/-- Without letters there is nothing to change. -/
theorem eq_of_not_isAlpha (hsame : SameLetters left right)
    (hothers : ∀ c ∈ left, c.isAlpha = false) : left = right := by
  induction left generalizing right with
  | nil => exact hsame.eq_nil.symm
  | cons c left ih =>
    obtain ⟨d, right, rfl, hfirst, hrest⟩ := hsame.exists_cons
    obtain ⟨hhead, hothers⟩ := List.forall_mem_cons.mp hothers
    rw [hfirst.eq_of_not_isAlpha hhead, ih hrest hothers]

/-- Both texts lead to the same place. -/
theorem advance_eq (hsame : SameLetters left right) (here : Location) :
    here.advance left = here.advance right := by
  induction left generalizing right here with
  | nil => rw [hsame.eq_nil]
  | cons c left ih =>
    obtain ⟨d, right, rfl, hfirst, hrest⟩ := hsame.exists_cons
    rw [Location.advance_cons, Location.advance_cons, hfirst.next_eq, ih hrest]

end SameLetters

/-! ## §3 Lexemes -/

/-- The same token, or two names that are the same in upper case. -/
def Token.SameButCase (left right : Token) : Prop :=
  left = right ∨ ∃ x y, left = .identifier x ∧ right = .identifier y ∧ upperCase x = upperCase y

theorem Token.SameButCase.kind_eq {left right : Token} (hsame : left.SameButCase right) :
    left.kind = right.kind := by
  rcases hsame with rfl | ⟨x, y, rfl, rfl, -⟩
  · rfl
  · rfl

theorem Token.SameButCase.eq_of_kind_ne {left right : Token} (hsame : left.SameButCase right)
    (hother : left.kind ≠ .identifier) : left = right := by
  rcases hsame with rfl | ⟨x, y, rfl, rfl, -⟩
  · rfl
  · exact absurd rfl hother

theorem Token.SameButCase.upperCase_eq {x y : String}
    (hsame : (Token.identifier x).SameButCase (.identifier y)) : upperCase x = upperCase y := by
  rcases hsame with hsame | ⟨_, _, hleft, hright, hupper⟩
  · cases hsame
    rfl
  · cases hleft
    cases hright
    exact hupper

namespace Grammar

variable {lexeme lexeme' rest rest' gap gap' : List Char}

/-- **A lexeme in another case** denotes the same token, or a name that is spelled like it. -/
theorem Denotes.sameLetters {token : Token} (hdenotes : Denotes lexeme token)
    (hsame : SameLetters lexeme lexeme') :
    ∃ token', Denotes lexeme' token' ∧ token.SameButCase token' := by
  -- what has no letters in it is not changed at all
  have hunchanged (hothers : ∀ c ∈ lexeme, c.isAlpha = false) :
      ∃ token', Denotes lexeme' token' ∧ token.SameButCase token' := by
    obtain rfl := hsame.eq_of_not_isAlpha hothers
    exact ⟨token, hdenotes, .inl rfl⟩
  cases hdenotes with
  | integer _ hall => exact hunchanged fun c hc => not_isAlpha_of_isDigit (hall c hc)
  | real _ hleft hright =>
    apply hunchanged
    intro c hc
    -- digits and the point have no case
    rcases List.mem_append.mp hc with hdigit | hbehind
    · exact not_isAlpha_of_isDigit (hleft c hdigit)
    · rcases List.mem_cons.mp hbehind with rfl | hdigit
      · decide
      · exact not_isAlpha_of_isDigit (hright c hdigit)
  -- reserved words are compared in upper case anyway
  | reserved hknown hupper => exact ⟨_, .reserved hknown (hsame.symm.trans hupper), .inl rfl⟩
  | @name first more hletter hall hfree =>
    -- a name stays a name: letter, letters and digits, and in upper case the same word
    obtain ⟨d, more', rfl, hhead, htail⟩ := hsame.exists_cons
    have hletter' : d.isAlpha = true := hhead.isAlpha_eq ▸ hletter
    have hall' : ∀ e ∈ more', e.isAlphanum = true :=
      htail.forall_mem (fun _ _ heq halphanum => heq.isAlphanum_eq ▸ halphanum) hall
    have hfree' : ∀ kind word, TokenKind.reservedWord? kind = some word →
        (d :: more').map Char.toUpper ≠ word.toList := by
      intro kind word hknown
      rw [← hsame]
      exact hfree kind word hknown
    refine ⟨_, .name hletter' hall' hfree', .inr ⟨_, _, rfl, rfl, ?_⟩⟩
    rw [upperCase_eq_iff, String.toList_ofList, String.toList_ofList]
    exact hsame
  | assign => exact hunchanged (by simp)
  | mark hknown =>
    apply hunchanged
    intro c hc
    rw [List.mem_singleton.mp hc]
    exact (classes_of_mem_marks hknown).2.1

theorem IsLexeme.exists_denotes (hlexeme : IsLexeme lexeme) : ∃ token, Denotes lexeme token := by
  obtain ⟨read, -, -, hdenotes⟩ := hlexeme.isLongest.first?
  exact ⟨read.token, hdenotes⟩

theorem IsLexeme.sameLetters (hlexeme : IsLexeme lexeme) (hsame : SameLetters lexeme lexeme') :
    IsLexeme lexeme' := by
  -- a lexeme is what denotes a token, and that is carried over already
  obtain ⟨token, hdenotes⟩ := hlexeme.exists_denotes
  obtain ⟨token', hdenotes', -⟩ := hdenotes.sameLetters hsame
  exact hdenotes'.isLexeme

/-- **The longest lexeme stays the longest.** -/
theorem IsLongest.sameLetters (hlongest : IsLongest lexeme (lexeme ++ rest))
    (hsame : SameLetters lexeme lexeme') (hbehind : SameLetters rest rest') :
    IsLongest lexeme' (lexeme' ++ rest') := by
  refine (isLongest_append_iff (hlongest.isLexeme.sameLetters hsame)).mpr ?_
  intro d hfirst hcontinued
  -- a character that continued one lexeme would continue the other
  obtain ⟨more, rfl⟩ := List.head?_eq_some_iff.mp hfirst
  obtain ⟨c, more', rfl, hhead, -⟩ := SameLetters.exists_cons (Eq.symm hbehind)
  have hsingle : SameLetters [d] [c] := congrArg (fun e => [e]) hhead
  have hapart := (isLongest_append_iff hlongest.isLexeme).mp hlongest c rfl
  exact hapart (hcontinued.sameLetters (SameLetters.append (Eq.symm hsame) hsingle))

/-! ## §4 Gaps and stray characters -/

theorem IsGap.sameLetters (hgap : IsGap gap) (hsame : SameLetters gap gap') : IsGap gap' := by
  induction hgap generalizing gap' with
  | nil =>
    obtain rfl := hsame.eq_nil
    exact .nil
  | blank hblank _ ih =>
    obtain ⟨d, right, rfl, hhead, htail⟩ := hsame.exists_cons
    exact .blank (hhead.isBlank_eq ▸ hblank) (ih htail)
  | comment hclosed _ ih =>
    obtain ⟨opening, _, rfl, hfirst, hinside⟩ := hsame.exists_cons
    -- the braces stay, and no letter of the body becomes one
    obtain rfl := hfirst.eq_of_not_isAlpha (by decide)
    obtain ⟨_, _, rfl, hbody, hending⟩ := hinside.exists_append
    obtain ⟨closing, _, rfl, hlast, hbehind⟩ := hending.exists_cons
    obtain rfl := hlast.eq_of_not_isAlpha (by decide)
    exact .comment (hbody.not_mem (by decide) hclosed) (ih hbehind)

theorem IsLastGap.sameLetters (hlast : IsLastGap gap) (hsame : SameLetters gap gap') :
    IsLastGap gap' := by
  cases hlast with
  | closed hgap => exact .closed (hgap.sameLetters hsame)
  | unclosed hbefore hunclosed =>
    obtain ⟨left, behind, rfl, hfirst, htail⟩ := hsame.exists_append
    obtain ⟨brace, body, rfl, hhead, hwithin⟩ := htail.exists_cons
    -- the brace that opens the comment stays, and none that closes it comes up
    obtain rfl := hhead.eq_of_not_isAlpha (by decide)
    exact .unclosed (hbefore.sameLetters hfirst) (hwithin.not_mem (by decide) hunclosed)

/-- A letter is not stray, as it begins a word. -/
theorem IsStray.not_isAlpha {c : Char} (hstray : IsStray c) : c.isAlpha = false := by
  cases hletter : c.isAlpha with
  | false => rfl
  | true => exact absurd rfl (hstray.noLexeme [c] (.word hletter (by simp)))

end Grammar

end MiniPascal
