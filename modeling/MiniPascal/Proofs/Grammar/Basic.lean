import MiniPascal.Token.Reserved
import MiniPascal.Text.Blank

/-!
# The Lexical Grammar

What the texts of the language are made of, said without a scanner: which stretches
of text are lexemes and which tokens they denote, what may stand between them, and
how a whole text falls apart into lexemes and gaps.

A lexeme always is the longest one that the rest of the text begins with.  A text
that does not fall apart up to its end has a stray character: one that begins
neither a gap nor a lexeme.
-/

namespace MiniPascal.Grammar

/-! ## §1 Lexemes -/

/-- The marks of one character. -/
def marks : List Char := [':', ',', ';', '.', '+', '-', '*', '/', '(', ')']

/-- **The lexemes** of the language. -/
inductive IsLexeme : List Char → Prop where
  /-- Digits. -/
  | integer {digits : List Char} (hinside : digits ≠ [])
      (hall : ∀ c ∈ digits, c.isDigit = true) : IsLexeme digits
  /-- Digits and a point, with or without digits after it. -/
  | real {whole fraction : List Char} (hinside : whole ≠ [])
      (hleft : ∀ c ∈ whole, c.isDigit = true) (hright : ∀ c ∈ fraction, c.isDigit = true) :
      IsLexeme (whole ++ '.' :: fraction)
  /-- A letter and any letters and digits after it. -/
  | word {first : Char} {more : List Char} (hletter : first.isAlpha = true)
      (hall : ∀ c ∈ more, c.isAlphanum = true) : IsLexeme (first :: more)
  | assign : IsLexeme [':', '=']
  | mark {c : Char} (hknown : c ∈ marks) : IsLexeme [c]

/-- The number that a literal with a point denotes: the nearest one of the format, or
its largest if the literal is too large. -/
def realValue (whole fraction : List Char) : Binary64 :=
  (Binary64.ofQuotient? (digitsValue (whole ++ fraction)) (Nat.pow 10 fraction.length)).getD
    .largest

/-- **The token of a lexeme.** -/
inductive Denotes : List Char → Token → Prop where
  /-- The number of the digits, or the largest that an integer token can carry. -/
  | integer {digits : List Char} (hinside : digits ≠ [])
      (hall : ∀ c ∈ digits, c.isDigit = true) :
      Denotes digits (.integer (min (digitsValue digits) Token.largestInteger : Nat))
  | real {whole fraction : List Char} (hinside : whole ≠ [])
      (hleft : ∀ c ∈ whole, c.isDigit = true) (hright : ∀ c ∈ fraction, c.isDigit = true) :
      Denotes (whole ++ '.' :: fraction) (.real (realValue whole fraction))
  /-- A reserved word, written in any case, is its keyword. -/
  | reserved {text : List Char} {kind : TokenKind} {word : String}
      (hknown : kind.reservedWord? = some word) (hsame : text.map Char.toUpper = word.toList) :
      Denotes text (.spelled kind word)
  /-- Any other word is a name, as it is written. -/
  | name {first : Char} {more : List Char} (hletter : first.isAlpha = true)
      (hall : ∀ c ∈ more, c.isAlphanum = true)
      (hfree : ∀ kind word, TokenKind.reservedWord? kind = some word →
        (first :: more).map Char.toUpper ≠ word.toList) :
      Denotes (first :: more) (.identifier (String.ofList (first :: more)))
  | assign : Denotes [':', '='] (.spelled .assign ":=")
  /-- A mark is the token whose symbol it is. -/
  | mark {c : Char} {kind : TokenKind} (hknown : c ∈ marks)
      (hsame : kind.symbol? = some (String.singleton c)) :
      Denotes [c] (.spelled kind (String.singleton c))

/-- The longest lexeme that a text begins with. -/
structure IsLongest (lexeme text : List Char) : Prop where
  initial : lexeme <+: text
  isLexeme : IsLexeme lexeme
  longest : ∀ other, other <+: text → IsLexeme other → other.length ≤ lexeme.length

/-! ## §2 Gaps -/

/-- What may stand between lexemes: blanks and closed comments. -/
inductive IsGap : List Char → Prop where
  | nil : IsGap []
  | blank {c : Char} {gap : List Char} (hblank : isBlank c = true) (hmore : IsGap gap) :
      IsGap (c :: gap)
  | comment {body gap : List Char} (hclosed : '\x7d' ∉ body) (hmore : IsGap gap) :
      IsGap ('\x7b' :: (body ++ '\x7d' :: gap))

/-- What may stand behind the last lexeme: a gap, which may end in an unclosed
comment. -/
inductive IsLastGap : List Char → Prop where
  | closed {gap : List Char} (hclosed : IsGap gap) : IsLastGap gap
  | unclosed {gap body : List Char} (hbefore : IsGap gap) (hunclosed : '\x7d' ∉ body) :
      IsLastGap (gap ++ '\x7b' :: body)

/-- A character that begins neither a gap nor a lexeme. -/
structure IsStray (c : Char) : Prop where
  notBlank : isBlank c = false
  notBrace : c ≠ '\x7b'
  noLexeme : ∀ lexeme, IsLexeme lexeme → lexeme.head? ≠ some c

/-! ## §3 Whole texts -/

/-- A lexeme with the gap before it. -/
structure Piece where
  gap : List Char
  lexeme : List Char

/-- How a text ends behind its last piece. -/
inductive Ending where
  /-- With a gap. -/
  | finished (gap : List Char)
  /-- With a stray character behind a gap, and whatever follows it. -/
  | stray (gap : List Char) (c : Char) (rest : List Char)

namespace Piece

/-- The text of a piece. -/
def text (piece : Piece) : List Char := piece.gap ++ piece.lexeme

end Piece

/-- The text of an ending. -/
def Ending.text : Ending → List Char
  | finished gap => gap
  | stray gap c rest => gap ++ c :: rest

/-- **How a text falls apart** into pieces and an ending. -/
inductive Decomposes : List Char → List Piece → Ending → Prop where
  | finished {gap : List Char} (hlast : IsLastGap gap) : Decomposes gap [] (.finished gap)
  | stray {gap rest : List Char} {c : Char} (hbefore : IsGap gap) (hstray : IsStray c) :
      Decomposes (gap ++ c :: rest) [] (.stray gap c rest)
  | lexeme {gap lexeme rest : List Char} {pieces : List Piece} {ending : Ending}
      (hbefore : IsGap gap) (hlongest : IsLongest lexeme (lexeme ++ rest))
      (hmore : Decomposes rest pieces ending) :
      Decomposes (gap ++ (lexeme ++ rest)) (⟨gap, lexeme⟩ :: pieces) ending

/-- What an ending is: a last gap, or a gap and behind it a stray character. -/
def Ending.IsEnding : Ending → Prop
  | finished gap => IsLastGap gap
  | stray gap c _ => IsGap gap ∧ IsStray c

/-- Pieces and ending are all of the text. -/
theorem Decomposes.text_eq {text : List Char} {pieces : List Piece} {ending : Ending}
    (hparts : Decomposes text pieces ending) :
    text = pieces.flatMap Piece.text ++ ending.text := by
  induction hparts with
  | finished => rfl
  | stray => rfl
  | lexeme _ _ _ ih => simp [Piece.text, ← ih]

theorem Decomposes.isEnding {text : List Char} {pieces : List Piece} {ending : Ending}
    (hparts : Decomposes text pieces ending) : ending.IsEnding := by
  induction hparts with
  | finished hlast => exact hlast
  | stray hbefore hstray => exact ⟨hbefore, hstray⟩
  | lexeme _ _ _ ih => exact ih

end MiniPascal.Grammar
