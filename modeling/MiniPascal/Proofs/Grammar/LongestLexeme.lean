import MiniPascal.Proofs.Grammar.Basic
import MiniPascal.Proofs.Text.Stretches
import MiniPascal.Scan.Lexeme
import MiniPascal.Scan.Separator
import Mathlib.Data.List.TakeWhile

/-!
# The First Lexeme Is the Longest

`Lexeme.first?` decides by one character how it reads on.  Measured against the
grammar it takes the longest lexeme that a text begins with, and the token of that
lexeme (`first?_sound`); it takes none only if no lexeme begins with the first
character of the text (`first?_eq_none_iff`).

The families of lexemes are told apart by their first characters (§1), so for each
family only its own lexemes compete for the greatest length (§2).
-/

namespace MiniPascal.Grammar

/-! ## §1 First characters -/

theorem not_isAlpha_of_isDigit {c : Char} (hdigit : c.isDigit = true) : c.isAlpha = false := by
  -- the code points of digits and of letters lie in ranges apart
  have hrange := Char.isDigit_iff_toNat.mp hdigit
  have hcode : c.val.toNat = c.toNat := rfl
  unfold Char.isAlpha Char.isUpper Char.isLower
  simp only [Bool.or_eq_false_iff, Bool.and_eq_false_iff,
    decide_eq_false_iff_not, ge_iff_le, UInt32.le_iff_toNat_le, hcode]
  simp only [Char.reduceToNat, Char.reduceVal, UInt32.reduceToNat] at hrange ⊢
  omega

theorem classes_of_mem_marks {c : Char} (hknown : c ∈ marks) :
    c.isDigit = false ∧ c.isAlpha = false ∧ isBlank c = false := by
  simp only [marks, List.mem_cons, List.not_mem_nil, or_false] at hknown
  -- mark by mark, since deciding all of the list at once unfolds too much
  rcases hknown with rfl | rfl | rfl | rfl | rfl | rfl | rfl | rfl | rfl | rfl <;> decide

theorem isBlank_eq_false {c : Char} (hlow : 0x21 ≤ c.toNat) (hhigh : c.toNat ≤ 0x7E) :
    isBlank c = false := by
  simp only [isBlank, blankRanges, List.any_cons, List.any_nil, Bool.or_false, Bool.or_eq_false_iff,
    Bool.and_eq_false_iff, decide_eq_false_iff_not]
  omega

theorem isBlank_of_isAlphanum {c : Char} (halphanum : c.isAlphanum = true) : isBlank c = false := by
  have hcode : c.val.toNat = c.toNat := rfl
  unfold Char.isAlphanum Char.isAlpha Char.isUpper Char.isLower Char.isDigit at halphanum
  simp only [Bool.or_eq_true, Bool.and_eq_true, decide_eq_true_eq, ge_iff_le,
    UInt32.le_iff_toNat_le, hcode, Char.reduceVal, UInt32.reduceToNat] at halphanum
  -- letters and digits are printed characters of one byte
  exact isBlank_eq_false (by omega) (by omega)

theorem isAlphanum_of_isAlpha {c : Char} (hletter : c.isAlpha = true) : c.isAlphanum = true :=
  Bool.or_eq_true_iff.mpr (.inl hletter)

theorem isAlphanum_of_mem_word {c : Char} {more : List Char} (hletter : c.isAlpha = true)
    (hall : ∀ d ∈ more, d.isAlphanum = true) : ∀ d ∈ c :: more, d.isAlphanum = true :=
  List.forall_mem_cons.mpr ⟨isAlphanum_of_isAlpha hletter, hall⟩

theorem isBlank_of_isAlpha {c : Char} (hletter : c.isAlpha = true) : isBlank c = false :=
  isBlank_of_isAlphanum (isAlphanum_of_isAlpha hletter)

theorem isBlank_of_isDigit {c : Char} (hdigit : c.isDigit = true) : isBlank c = false :=
  isBlank_of_isAlphanum (Bool.or_eq_true_iff.mpr (.inr hdigit))

/-- The digits of a literal, with or without a point among them. -/
def IsNumeral (text : List Char) : Prop :=
  (∀ d ∈ text, d.isDigit = true) ∨
    ∃ whole fraction, text = whole ++ '.' :: fraction ∧
      (∀ d ∈ whole, d.isDigit = true) ∧ ∀ d ∈ fraction, d.isDigit = true

/-- **The families of lexemes** are told apart by what a lexeme begins with: a digit, a
letter or a mark. -/
theorem IsLexeme.family {c : Char} {more : List Char} (hlexeme : IsLexeme (c :: more)) :
    (c.isDigit = true ∧ IsNumeral (c :: more)) ∨
      (c.isAlpha = true ∧ ∀ d ∈ more, d.isAlphanum = true) ∨
      (c ∈ marks ∧ (more = [] ∨ c = ':' ∧ more = ['='])) := by
  -- the constructors say what a lexeme begins with once its shape is set aside
  generalize hshape : c :: more = lexeme at hlexeme ⊢
  cases hlexeme with
  | integer hinside hall =>
    subst hshape
    exact .inl ⟨hall c List.mem_cons_self, .inl hall⟩
  | @real whole fraction hinside hleft hright =>
    cases whole with
    | nil => exact absurd rfl hinside
    | cons d whole =>
      obtain ⟨rfl, -⟩ := List.cons.inj hshape
      exact .inl ⟨hleft c List.mem_cons_self, .inr ⟨_, _, rfl, hleft, hright⟩⟩
  | word hletter hall =>
    obtain ⟨rfl, rfl⟩ := List.cons.inj hshape
    exact .inr (.inl ⟨hletter, hall⟩)
  | assign =>
    obtain ⟨rfl, rfl⟩ := List.cons.inj hshape
    exact .inr (.inr ⟨by decide, .inr ⟨rfl, rfl⟩⟩)
  | mark hknown =>
    obtain ⟨rfl, rfl⟩ := List.cons.inj hshape
    exact .inr (.inr ⟨hknown, .inl rfl⟩)

theorem IsLexeme.ne_nil {lexeme : List Char} (hlexeme : IsLexeme lexeme) : lexeme ≠ [] := by
  cases hlexeme with
  | integer hinside => exact hinside
  | real hinside => simp
  | word => simp
  | assign => simp
  | mark => simp

/-- No lexeme begins with a character that begins a gap. -/
theorem IsLexeme.not_starts {c : Char} {more : List Char} (hlexeme : IsLexeme (c :: more)) :
    Separator.starts c = false := by
  have hbrace : c ≠ '\x7b' := by
    rintro rfl
    rcases hlexeme.family with hfirst | hfirst | hfirst <;> exact absurd hfirst.1 (by decide)
  -- digits, letters and marks are all printed, and no blank is
  have hblank : isBlank c = false := by
    rcases hlexeme.family with ⟨hdigit, -⟩ | ⟨hletter, -⟩ | ⟨hknown, -⟩
    · exact isBlank_of_isDigit hdigit
    · exact isBlank_of_isAlpha hletter
    · exact (classes_of_mem_marks hknown).2.2
  simp [Separator.starts, hblank, hbrace]

/-! ## §2 Each family takes its longest lexeme -/

section Families

variable {c : Char} {more other : List Char}

theorem text_integer (digits : List Char) : (Lexeme.integer digits).text = digits := by
  unfold Lexeme.integer
  split <;> rfl

theorem text_real (whole fraction : List Char) :
    (Lexeme.real whole fraction).text = whole ++ '.' :: fraction := by
  unfold Lexeme.real
  dsimp only
  split <;> rfl

theorem number_eq_real {text rest : List Char}
    (hpoint : text.dropWhile Char.isDigit = '.' :: rest) :
    Lexeme.number text
      = Lexeme.real (text.takeWhile Char.isDigit) (rest.takeWhile Char.isDigit) := by
  simp only [Lexeme.number, hpoint]

theorem number_eq_integer {text : List Char}
    (hstops : (text.dropWhile Char.isDigit).head? ≠ some '.') :
    Lexeme.number text = Lexeme.integer (text.takeWhile Char.isDigit) := by
  unfold Lexeme.number
  split
  · rename_i rest hpoint
    rw [hpoint] at hstops
    exact absurd rfl hstops
  · rfl

theorem token_integer {digits : List Char} (hinside : digits ≠ []) :
    (Lexeme.integer digits).token
      = .integer (min (digitsValue digits) Token.largestInteger : Nat) := by
  unfold Lexeme.integer
  -- digits whose value does not fit give the largest whole number
  by_cases hsmall : digitsValue digits ≤ Token.largestInteger
  · simp [hinside, hsmall]
  · have hlarge : Token.largestInteger ≤ digitsValue digits := by omega
    simp [hsmall, Nat.min_eq_right hlarge]

theorem token_real (whole fraction : List Char) :
    (Lexeme.real whole fraction).token = .real (realValue whole fraction) := by
  unfold Lexeme.real realValue
  dsimp only
  split <;> rename_i heq <;> rw [heq] <;> rfl

theorem length_digits_le_number (text : List Char) :
    (text.takeWhile Char.isDigit).length ≤ (Lexeme.number text).text.length := by
  unfold Lexeme.number
  dsimp only
  -- with a point or without, the digits come first
  split
  · rw [text_real, List.length_append]
    omega
  · exact Nat.le_of_eq (by rw [text_integer])

/-- A number takes a point behind the digits, and all digits behind the point. -/
theorem length_real_le_number {whole fraction text : List Char}
    (hleft : ∀ d ∈ whole, d.isDigit = true) (hright : ∀ d ∈ fraction, d.isDigit = true)
    (hinitial : whole ++ '.' :: fraction <+: text) :
    (whole ++ '.' :: fraction).length ≤ (Lexeme.number text).text.length := by
  -- the first run ends at the point, and the second is `fraction` at least
  obtain ⟨rest, rfl⟩ := hinitial
  have hpoint : ∀ d ∈ ('.' :: (fraction ++ rest)).head?, d.isDigit = false := by
    simp
  have hafter := isPrefix_run (List.prefix_append fraction rest) hright
  unfold Lexeme.number
  rw [List.append_assoc, List.cons_append, takeWhile_run hleft hpoint, dropWhile_run hleft hpoint]
  simp only [text_real, List.length_append, List.length_cons]
  have := hafter.length_le
  omega

/-- **Numbers.**  Behind a digit the longest lexeme is the number that stands there. -/
theorem length_le_number (hdigit : c.isDigit = true) (hinitial : c :: other <+: c :: more)
    (hlexeme : IsLexeme (c :: other)) :
    (c :: other).length ≤ (Lexeme.number (c :: more)).text.length := by
  -- among the lexemes only numbers begin with a digit
  rcases hlexeme.family with ⟨-, hall | ⟨whole, fraction, hsame, hleft, hright⟩⟩ | ⟨hletter, -⟩ |
    ⟨hknown, -⟩
  · exact Nat.le_trans (isPrefix_run hinitial hall).length_le (length_digits_le_number _)
  · -- a competitor with a point ends within the number that stands here
    rw [hsame] at hinitial ⊢
    exact length_real_le_number hleft hright hinitial
  · simp [not_isAlpha_of_isDigit hdigit] at hletter
  · simp [(classes_of_mem_marks hknown).1] at hdigit

/-- **Words.**  Behind a letter the longest lexeme is the word that stands there. -/
theorem length_le_word (hletter : c.isAlpha = true) (hinitial : c :: other <+: c :: more)
    (hlexeme : IsLexeme (c :: other)) :
    (c :: other).length ≤ (Lexeme.word (c :: more)).text.length := by
  -- among the lexemes only words begin with a letter
  rcases hlexeme.family with ⟨hdigit, -⟩ | ⟨-, hall⟩ | ⟨hknown, -⟩
  · simp [not_isAlpha_of_isDigit hdigit] at hletter
  · exact (isPrefix_run hinitial (isAlphanum_of_mem_word hletter hall)).length_le
  · simp [(classes_of_mem_marks hknown).2.1] at hletter

/-- **Marks.**  Behind a mark a lexeme has one character, but for the assignment sign. -/
theorem eq_nil_or_assign_of_mark (hknown : c ∈ marks) (hlexeme : IsLexeme (c :: other)) :
    other = [] ∨ c = ':' ∧ other = ['='] := by
  obtain ⟨hnotDigit, hnotLetter, -⟩ := classes_of_mem_marks hknown
  rcases hlexeme.family with ⟨hdigit, -⟩ | ⟨hletter, -⟩ | ⟨-, hending⟩
  · simp [hnotDigit] at hdigit
  · simp [hnotLetter] at hletter
  · exact hending

end Families

/-! ## §3 Each family gives the token of its lexeme -/

section Tokens

variable {c : Char} {more : List Char}

theorem denotes_number (hdigit : c.isDigit = true) (more : List Char) :
    Denotes (Lexeme.number (c :: more)).text (Lexeme.number (c :: more)).token := by
  have hinside : (c :: more).takeWhile Char.isDigit ≠ [] := by
    simp [List.takeWhile_cons_of_pos hdigit]
  unfold Lexeme.number
  dsimp only
  -- a point behind the digits decides whether the number is real
  split
  · rw [text_real, token_real]
    exact .real hinside (fun _ => List.mem_takeWhile_imp) fun _ => List.mem_takeWhile_imp
  · rw [text_integer, token_integer hinside]
    exact .integer hinside fun _ => List.mem_takeWhile_imp

/-- The table holds every reserved word with its own token, and nothing else. -/
theorem mem_reservedWords_iff (word : String) (token : Token) :
    (word, token) ∈ reservedWords ↔
      ∃ kind, TokenKind.reservedWord? kind = some word ∧ token = .spelled kind word := by
  constructor
  · intro hlisted
    -- each entry comes from a kind that is written as a word
    obtain ⟨kind, -, hentry⟩ := List.mem_filterMap.mp hlisted
    obtain ⟨spelling, hknown, hsame⟩ := Option.map_eq_some_iff.mp hentry
    obtain ⟨rfl, rfl⟩ := Prod.mk.inj hsame
    exact ⟨kind, hknown, rfl⟩
  · rintro ⟨kind, hknown, rfl⟩
    refine List.mem_filterMap.mpr ⟨kind, ?_, by rw [hknown]; rfl⟩
    rw [mem_reservedKinds_iff, TokenKind.isReserved, hknown]
    rfl

theorem lookup_reservedWords_iff (word : String) (token : Token) :
    reservedWords.lookup word = some token ↔
      ∃ kind, TokenKind.reservedWord? kind = some word ∧ token = .spelled kind word := by
  constructor
  · intro hfound
    obtain ⟨before, after, hwhole, -⟩ := List.lookup_eq_some_iff.mp hfound
    have hlisted : (word, token) ∈ reservedWords := by simp [hwhole]
    exact (mem_reservedWords_iff word token).mp hlisted
  · rintro ⟨kind, hknown, rfl⟩
    -- no word is in the table twice, which is checked word by word
    cases kind <;>
      simp only [TokenKind.reservedWord?, reduceCtorEq, Option.some.injEq] at hknown <;>
      subst hknown <;> decide

/-- A word that is reserved in upper case gives its keyword. -/
theorem ofWord_of_reserved {text : List Char} {kind : TokenKind} {word : String}
    (hknown : kind.reservedWord? = some word) (hsame : text.map Char.toUpper = word.toList) :
    Token.ofWord (String.ofList text) = .spelled kind word := by
  have hupper : upperCase (String.ofList text) = word := by
    rw [upperCase, String.toList_ofList, hsame, String.ofList_toList]
  have hlisted := (lookup_reservedWords_iff word (.spelled kind word)).mpr ⟨kind, hknown, rfl⟩
  rw [Token.ofWord, Token.reserved?, hupper, hlisted]
  rfl

theorem ofWord_of_free {text : List Char}
    (hfree : ∀ kind word, TokenKind.reservedWord? kind = some word →
      text.map Char.toUpper ≠ word.toList) :
    Token.ofWord (String.ofList text) = .identifier (String.ofList text) := by
  rw [Token.ofWord, Token.reserved?]
  -- a keyword that was found would be the upper case of the text
  cases hfound : reservedWords.lookup (upperCase (String.ofList text)) with
  | none => rfl
  | some keyword =>
    obtain ⟨kind, hknown, -⟩ := (lookup_reservedWords_iff _ _).mp hfound
    exact absurd (by simp [upperCase]) (hfree kind _ hknown)

theorem denotes_word (hletter : c.isAlpha = true) (more : List Char) :
    Denotes (Lexeme.word (c :: more)).text (Lexeme.word (c :: more)).token := by
  have halphanum : c.isAlphanum = true := isAlphanum_of_isAlpha hletter
  have htext : (Lexeme.word (c :: more)).text = c :: more.takeWhile Char.isAlphanum := by
    simp [Lexeme.word, List.takeWhile_cons_of_pos halphanum]
  have htoken : (Lexeme.word (c :: more)).token
      = Token.ofWord (String.ofList (c :: more.takeWhile Char.isAlphanum)) := by
    simp [Lexeme.word, List.takeWhile_cons_of_pos halphanum]
  rw [htext, htoken]
  -- whether a word is reserved is all that decides between the two tokens
  by_cases hreserved : ∃ kind word, TokenKind.reservedWord? kind = some word ∧
      (c :: more.takeWhile Char.isAlphanum).map Char.toUpper = word.toList
  · obtain ⟨kind, word, hknown, hsame⟩ := hreserved
    rw [ofWord_of_reserved hknown hsame]
    exact .reserved hknown hsame
  · have hfree : ∀ kind word, TokenKind.reservedWord? kind = some word →
        (c :: more.takeWhile Char.isAlphanum).map Char.toUpper ≠ word.toList :=
      fun kind word hknown hsame => hreserved ⟨kind, word, hknown, hsame⟩
    rw [ofWord_of_free hfree]
    exact .name hletter (fun _ => List.mem_takeWhile_imp) hfree

theorem mem_marks_of_ofMark? {kind : TokenKind} (hknown : TokenKind.ofMark? c = some kind) :
    c ∈ marks ∧ c ≠ ':' := by
  unfold TokenKind.ofMark? at hknown
  split at hknown <;> first | exact ⟨by decide, by decide⟩ | cases hknown

theorem exists_ofMark? (hknown : c ∈ marks) :
    c = ':' ∨ ∃ kind, TokenKind.ofMark? c = some kind := by
  simp only [marks, List.mem_cons, List.not_mem_nil, or_false] at hknown
  rcases hknown with rfl | hknown
  · exact .inl rfl
  · refine .inr (Option.isSome_iff_exists.mp ?_)
    rcases hknown with rfl | rfl | rfl | rfl | rfl | rfl | rfl | rfl | rfl <;> rfl

theorem isAlpha_of_reservedWord? {kind : TokenKind} {word : String}
    (hknown : kind.reservedWord? = some word) :
    word.toList ≠ [] ∧ ∀ c ∈ word.toList, c.isAlpha = true := by
  refine And.imp_right List.all_eq_true.mp ?_
  cases kind <;> simp only [TokenKind.reservedWord?, reduceCtorEq, Option.some.injEq] at hknown <;>
    subst hknown <;> decide

theorem isAlpha_of_map_toUpper {text : List Char} {kind : TokenKind} {word : String}
    (hknown : kind.reservedWord? = some word) (hsame : text.map Char.toUpper = word.toList) :
    ∀ c ∈ text, c.isAlpha = true := by
  intro c hc
  have hletters := (isAlpha_of_reservedWord? hknown).2
  rw [← hsame] at hletters
  have hletter := hletters c.toUpper (List.mem_map_of_mem hc)
  -- the word has letters only, and upper case makes letters of letters alone
  rcases toUpper_cases c with halone | ⟨hlower, -⟩
  · rwa [halone] at hletter
  · exact Bool.or_eq_true_iff.mpr (.inr hlower)

theorem Denotes.isLexeme {text : List Char} {token : Token} (hdenotes : Denotes text token) :
    IsLexeme text := by
  cases hdenotes with
  | integer hinside hall => exact .integer hinside hall
  | real hinside hleft hright => exact .real hinside hleft hright
  | reserved hknown hsame =>
    -- a keyword consists of letters, whatever their case
    have hinside := (isAlpha_of_reservedWord? hknown).1
    have hletters := isAlpha_of_map_toUpper hknown hsame
    rw [← hsame] at hinside
    cases text with
    | nil => exact absurd rfl hinside
    | cons c more =>
      obtain ⟨hletter, hothers⟩ := List.forall_mem_cons.mp hletters
      exact .word hletter fun d hd => isAlphanum_of_isAlpha (hothers d hd)
  | name hletter hall => exact .word hletter hall
  | assign => exact .assign
  | mark hknown => exact .mark hknown

end Tokens

/-! ## §4 The first lexeme of a text -/

section Front

variable {c : Char} {more : List Char}

theorem first?_of_digit (hdigit : c.isDigit = true) :
    Lexeme.first? (c :: more) = some (Lexeme.number (c :: more)) := by
  simp [Lexeme.first?, hdigit]

theorem first?_of_letter (hletter : c.isAlpha = true) :
    Lexeme.first? (c :: more) = some (Lexeme.word (c :: more)) := by
  -- digits are asked for before letters
  have hnotDigit : c.isDigit = false := by
    cases hdigit : c.isDigit with
    | false => rfl
    | true => simp [not_isAlpha_of_isDigit hdigit] at hletter
  simp [Lexeme.first?, hnotDigit, hletter]

theorem first?_colon : Lexeme.first? (':' :: more) = some (Lexeme.colon (':' :: more)) := rfl

theorem first?_of_ofMark? {kind : TokenKind} (hknown : TokenKind.ofMark? c = some kind) :
    Lexeme.first? (c :: more) = some (Lexeme.mark kind (c :: more)) := by
  obtain ⟨hlisted, hnotColon⟩ := mem_marks_of_ofMark? hknown
  -- a mark comes last in the order: no digit, no letter and no colon
  obtain ⟨hnotDigit, hnotLetter, -⟩ := classes_of_mem_marks hlisted
  simp [Lexeme.first?, hnotDigit, hnotLetter, hnotColon, hknown]

end Front

/-- The competitors of a lexeme begin with the same character. -/
theorem IsLongest.of_head {c : Char} {more lexeme : List Char} (hinitial : lexeme <+: c :: more)
    (hlexeme : IsLexeme lexeme)
    (hlongest : ∀ other, c :: other <+: c :: more → IsLexeme (c :: other) →
      (c :: other).length ≤ lexeme.length) : IsLongest lexeme (c :: more) := by
  refine ⟨hinitial, hlexeme, ?_⟩
  intro other hother hother'
  obtain ⟨d, part, rfl⟩ := List.exists_cons_of_ne_nil hother'.ne_nil
  obtain ⟨rfl, -⟩ := List.cons_prefix_cons.mp hother
  exact hlongest part hother hother'

/-- A text begins as its longest lexeme does. -/
theorem IsLongest.head?_eq {lexeme text : List Char} (hlongest : IsLongest lexeme text) :
    lexeme.head? = text.head? := by
  obtain ⟨rest, rfl⟩ := hlongest.initial
  exact (List.head?_append_of_ne_nil _ hlongest.isLexeme.ne_nil).symm

theorem IsLongest.unique {text left right : List Char} (hleft : IsLongest left text)
    (hright : IsLongest right text) : left = right := by
  have hshorter := hright.longest left hleft.initial hleft.isLexeme
  have hlonger := hleft.longest right hright.initial hright.isLexeme
  -- both are initial parts of the text and neither is longer than the other
  have hinitial := List.prefix_of_prefix_length_le hleft.initial hright.initial hshorter
  exact hinitial.eq_of_length_le hlonger

/-- A colon is the longest lexeme unless an equals sign follows it. -/
theorem colon_sound (more : List Char) :
    IsLongest (Lexeme.colon (':' :: more)).text (':' :: more)
      ∧ Denotes (Lexeme.colon (':' :: more)).text (Lexeme.colon (':' :: more)).token := by
  have hlisted : ':' ∈ marks := by decide
  unfold Lexeme.colon
  split
  · -- an equals sign follows
    rename_i d rest hsame
    obtain ⟨-, rfl⟩ := List.cons.inj hsame
    refine ⟨.of_head (List.take_prefix ..) .assign ?_, .assign⟩
    intro other hinitial hother
    rcases eq_nil_or_assign_of_mark hlisted hother with rfl | ⟨-, rfl⟩
    · exact Nat.le_succ 1
    · exact Nat.le_refl 2
  · -- anything else follows, or nothing
    rename_i hfree
    refine ⟨.of_head (List.take_prefix ..) (.mark hlisted) ?_, .mark hlisted rfl⟩
    intro other hinitial hother
    rcases eq_nil_or_assign_of_mark hlisted hother with rfl | ⟨-, rfl⟩
    · exact Nat.le_refl 1
    · obtain ⟨rest, rfl⟩ := (List.cons_prefix_cons.mp hinitial).2
      exact absurd rfl (hfree ':' rest)

theorem token_mark {kind : TokenKind} {symbol : String} (hknown : kind.symbol? = some symbol)
    {text : List Char} : (Lexeme.mark kind text).token = .spelled kind symbol := by
  simp [Lexeme.mark, Token.mark, Token.spelled, hknown]

theorem mark_sound {c : Char} {kind : TokenKind} (hknown : TokenKind.ofMark? c = some kind)
    (more : List Char) :
    IsLongest (Lexeme.mark kind (c :: more)).text (c :: more)
      ∧ Denotes (Lexeme.mark kind (c :: more)).text (Lexeme.mark kind (c :: more)).token := by
  obtain ⟨hlisted, hnotColon⟩ := mem_marks_of_ofMark? hknown
  have hsymbol := TokenKind.symbol?_of_ofMark? hknown
  have hdenotes : Denotes [c] (Lexeme.mark kind (c :: more)).token :=
    token_mark hsymbol ▸ .mark hlisted hsymbol
  refine ⟨.of_head (List.take_prefix ..) (.mark hlisted) ?_, hdenotes⟩
  intro other hinitial hother
  rcases eq_nil_or_assign_of_mark hlisted hother with rfl | ⟨rfl, -⟩
  · exact Nat.le_refl 1
  · -- only a colon could begin the assignment sign
    exact absurd rfl hnotColon

/-- **The longest lexeme.**  What is read at the front of a text is the longest lexeme
there, with the token it denotes. -/
theorem first?_sound {text : List Char} {lexeme : Lexeme}
    (hfound : Lexeme.first? text = some lexeme) :
    IsLongest lexeme.text text ∧ Denotes lexeme.text lexeme.token := by
  have hinitial := Lexeme.text_isPrefix_of_first? hfound
  cases text with
  | nil => cases hfound
  | cons c more =>
    simp only [Lexeme.first?] at hfound
    -- the first character decides, in the order in which `first?` asks
    by_cases hdigit : c.isDigit = true
    · rw [if_pos hdigit] at hfound
      obtain rfl := Option.some.inj hfound
      have hdenotes := denotes_number hdigit more
      exact ⟨.of_head hinitial hdenotes.isLexeme fun _ => length_le_number hdigit, hdenotes⟩
    · rw [if_neg hdigit] at hfound
      by_cases hletter : c.isAlpha = true
      · rw [if_pos hletter] at hfound
        obtain rfl := Option.some.inj hfound
        have hdenotes := denotes_word hletter more
        exact ⟨.of_head hinitial hdenotes.isLexeme fun _ => length_le_word hletter, hdenotes⟩
      · rw [if_neg hletter] at hfound
        by_cases hcolon : c = ':'
        · subst hcolon
          rw [if_pos rfl] at hfound
          obtain rfl := Option.some.inj hfound
          exact colon_sound more
        · rw [if_neg hcolon] at hfound
          -- the other marks are looked up
          obtain ⟨kind, hknown, rfl⟩ := Option.map_eq_some_iff.mp hfound
          exact mark_sound hknown more

/-- **Nothing is passed over.**  Where no lexeme is read, no lexeme begins. -/
theorem first?_eq_none_iff {c : Char} {more : List Char} :
    Lexeme.first? (c :: more) = none ↔ ∀ lexeme, IsLexeme lexeme → lexeme.head? ≠ some c := by
  constructor
  · -- a lexeme belongs to a family, and every family is read
    intro hnone lexeme hlexeme hhead
    obtain ⟨d, part, rfl⟩ := List.exists_cons_of_ne_nil hlexeme.ne_nil
    obtain rfl : d = c := by simpa using hhead
    rcases hlexeme.family with ⟨hdigit, -⟩ | ⟨hletter, -⟩ | ⟨hknown, -⟩
    · simp [first?_of_digit hdigit] at hnone
    · simp [first?_of_letter hletter] at hnone
    · rcases exists_ofMark? hknown with rfl | ⟨kind, hkind⟩
      · simp [first?_colon] at hnone
      · simp [first?_of_ofMark? hkind] at hnone
  · -- what is read is itself a lexeme that begins here
    intro hstray
    cases hfound : Lexeme.first? (c :: more) with
    | none => rfl
    | some lexeme =>
      have hlongest := (first?_sound hfound).1
      exact absurd hlongest.head?_eq (hstray lexeme.text hlongest.isLexeme)

/-- The longest lexeme of a text is read, with a token that it denotes. -/
theorem IsLongest.first? {text part : List Char} (hlongest : IsLongest part text) :
    ∃ lexeme, Lexeme.first? text = some lexeme ∧ lexeme.text = part
      ∧ Denotes part lexeme.token := by
  obtain ⟨c, rest, rfl⟩ := List.exists_cons_of_ne_nil hlongest.isLexeme.ne_nil
  obtain ⟨more, rfl⟩ := hlongest.initial
  -- something is read, as a lexeme begins here
  cases hfound : Lexeme.first? (c :: rest ++ more) with
  | none => exact absurd rfl (first?_eq_none_iff.mp hfound (c :: rest) hlongest.isLexeme)
  | some lexeme =>
    obtain ⟨hlongest', hdenotes⟩ := first?_sound hfound
    obtain hsame := hlongest'.unique hlongest
    exact ⟨lexeme, rfl, hsame, hsame ▸ hdenotes⟩

/-! ## §5 A lexeme denotes one token -/

theorem IsLexeme.isLongest {lexeme : List Char} (hlexeme : IsLexeme lexeme) :
    IsLongest lexeme lexeme :=
  ⟨List.prefix_rfl, hlexeme, fun _ hinitial _ => hinitial.length_le⟩

theorem symbol?_injective {left right : TokenKind} {symbol : String}
    (hleft : left.symbol? = some symbol) (hright : right.symbol? = some symbol) : left = right := by
  -- searched for by its symbol, a kind is found itself
  have hfound : ∀ kind : TokenKind, kind.symbol?.isSome = true →
      TokenKind.all.find? (fun other => other.symbol? == kind.symbol?) = some kind := by
    intro kind
    cases kind <;> decide
  have hl := hfound left (by rw [hleft]; rfl)
  have hr := hfound right (by rw [hright]; rfl)
  rw [hleft] at hl
  rw [hright, hl] at hr
  exact Option.some.inj hr

theorem number_of_digits {digits : List Char} (hall : ∀ c ∈ digits, c.isDigit = true) :
    Lexeme.number digits = Lexeme.integer digits := by
  have hrun := List.takeWhile_eq_self_iff.mpr hall
  have hafter := List.dropWhile_eq_nil_iff.mpr hall
  simp only [Lexeme.number, hrun, hafter]

theorem number_of_real {whole fraction : List Char} (hleft : ∀ c ∈ whole, c.isDigit = true)
    (hright : ∀ c ∈ fraction, c.isDigit = true) :
    Lexeme.number (whole ++ '.' :: fraction) = Lexeme.real whole fraction := by
  have hpoint : ∀ c ∈ ('.' :: fraction).head?, c.isDigit = false := by simp
  have hrun := List.takeWhile_eq_self_iff.mpr hright
  simp only [Lexeme.number, takeWhile_run hleft hpoint, dropWhile_run hleft hpoint, hrun]

theorem word_of_alphanum {text : List Char} (hall : ∀ c ∈ text, c.isAlphanum = true) :
    (Lexeme.word text).token = Token.ofWord (String.ofList text) := by
  have hrun := List.takeWhile_eq_self_iff.mpr hall
  simp only [Lexeme.word, hrun]

/-- **One token.**  A text denotes one token at most: the one that is read from it. -/
theorem Denotes.unique {text : List Char} {left right : Token} (hleft : Denotes text left)
    (hright : Denotes text right) : left = right := by
  -- the token that is read does not depend on what is denoted
  suffices hread : ∀ token, Denotes text token →
      (Lexeme.first? text).map Lexeme.token = some token by
    have := (hread left hleft).symm.trans (hread right hright)
    exact Option.some.inj this
  intro token hdenotes
  -- for each rule the branch of `first?` that its first character leads to
  cases hdenotes with
  | integer hinside hall =>
    obtain ⟨c, more, rfl⟩ := List.exists_cons_of_ne_nil hinside
    rw [first?_of_digit (hall c List.mem_cons_self), number_of_digits hall, Option.map_some,
      token_integer hinside]
  | @real whole fraction hinside hleading htrailing =>
    obtain ⟨c, more, rfl⟩ := List.exists_cons_of_ne_nil hinside
    rw [List.cons_append, first?_of_digit (hleading c List.mem_cons_self), ← List.cons_append,
      number_of_real hleading htrailing, Option.map_some, token_real]
  | reserved hknown hsame =>
    obtain ⟨c, more, rfl⟩ := List.exists_cons_of_ne_nil hleft.isLexeme.ne_nil
    -- keywords and names are both read as words, which are looked up
    have hletters := isAlpha_of_map_toUpper hknown hsame
    have hall : ∀ d ∈ c :: more, d.isAlphanum = true :=
      fun d hd => isAlphanum_of_isAlpha (hletters d hd)
    rw [first?_of_letter (hletters c List.mem_cons_self), Option.map_some, word_of_alphanum hall,
      ofWord_of_reserved hknown hsame]
  | @name c more hletter hall hfree =>
    rw [first?_of_letter hletter, Option.map_some,
      word_of_alphanum (isAlphanum_of_mem_word hletter hall), ofWord_of_free hfree]
  | assign => rfl
  | @mark c kind hknown hsame =>
    -- the colon has a branch of its own
    rcases exists_ofMark? hknown with rfl | ⟨other, hother⟩
    · obtain rfl : kind = .colon := symbol?_injective hsame rfl
      rfl
    · have hsymbol := TokenKind.symbol?_of_ofMark? hother
      obtain rfl := symbol?_injective hsame hsymbol
      rw [first?_of_ofMark? hother, Option.map_some, token_mark hsymbol]

end MiniPascal.Grammar
