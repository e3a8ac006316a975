import MiniPascal.Token.Reserved

/-!
# Lexemes

A lexeme is the stretch of text that one token is written with.  Each function
here reads one kind of lexeme at the front of a text and takes as much as that
kind allows; `Lexeme.first?` decides by the first character which kind it is.

The main statements say that a lexeme is an initial part of the text
(`text_isPrefix_of_first?`) and that it is never empty (`text_ne_nil_of_first?`).
-/

namespace MiniPascal

/-- A token together with the text it is written with. -/
structure Lexeme where
  token : Token
  text : List Char
  /-- Whether the text denotes a number that is too large, so that the token
  carries the largest one of its type. -/
  saturated : Bool
  deriving DecidableEq

namespace Lexeme

/-! ## §1 Numbers -/

/-- An integer literal.  Without digits it denotes no number and counts as too
large. -/
def integer (digits : List Char) : Lexeme :=
  if digits ≠ [] ∧ digitsValue digits ≤ Token.largestInteger then
    ⟨Token.integer (digitsValue digits), digits, false⟩
  else
    ⟨Token.integer Token.largestInteger, digits, true⟩

/-- A real literal, from the digits before the point and the digits after it. -/
def real (whole fraction : List Char) : Lexeme :=
  let text := whole ++ '.' :: fraction
  match Binary64.ofQuotient? (digitsValue (whole ++ fraction)) (Nat.pow 10 fraction.length) with
  | some value => ⟨Token.real value, text, false⟩
  | none => ⟨Token.real .largest, text, true⟩

/-- A number: a run of digits, and if a point follows it, the point and the run of
digits after it.  The point makes it real. -/
def number (input : List Char) : Lexeme :=
  let whole := input.takeWhile Char.isDigit
  match input.dropWhile Char.isDigit with
  | '.' :: rest => real whole (rest.takeWhile Char.isDigit)
  | _ => integer whole

/-! ## §2 Words and marks -/

/-- A word: a run of ASCII letters and digits, reserved or a name. -/
def word (input : List Char) : Lexeme :=
  let text := input.takeWhile Char.isAlphanum
  ⟨Token.ofWord (String.ofList text), text, false⟩

/-- A colon, which an equals sign after it turns into the assignment sign. -/
def colon (input : List Char) : Lexeme :=
  match input with
  | _ :: '=' :: _ => ⟨Token.mark .assign, input.take 2, false⟩
  | _ => ⟨Token.mark .colon, input.take 1, false⟩

def mark (kind : TokenKind) (input : List Char) : Lexeme :=
  ⟨Token.mark kind, input.take 1, false⟩

/-! ## §3 The first lexeme of a text -/

/-- **The lexeme at the front of a text.**  There is none if the text is empty or
its first character begins no lexeme. -/
def first? (input : List Char) : Option Lexeme :=
  match input with
  | [] => none
  | c :: _ =>
    if c.isDigit then some (number input)
    else if c.isAlpha then some (word input)
    else if c = ':' then some (colon input)
    else (TokenKind.ofMark? c).map fun kind => mark kind input

theorem text_isPrefix_number (input : List Char) : (number input).text <+: input := by
  have hwhole := List.takeWhile_append_dropWhile (p := Char.isDigit) (l := input)
  unfold number
  split
  · -- a point follows the digits
    rename_i rest hrest
    have hfraction := List.takeWhile_append_dropWhile (p := Char.isDigit) (l := rest)
    refine ⟨rest.dropWhile Char.isDigit, ?_⟩
    have htext : ∀ w f, (real w f).text = w ++ '.' :: f := by
      intro w f; unfold real; dsimp only; split <;> rfl
    rw [htext, List.append_assoc, List.cons_append, hfraction, ← hrest, hwhole]
  · -- anything else ends the number
    refine ⟨input.dropWhile Char.isDigit, ?_⟩
    have htext : ∀ w, (integer w).text = w := by
      intro w; unfold integer; split <;> rfl
    rw [htext, hwhole]

theorem text_isPrefix_colon (input : List Char) : (colon input).text <+: input := by
  unfold colon
  split <;> exact List.take_prefix ..

/-- **A lexeme stands at the front.**  It is an initial part of the text. -/
theorem text_isPrefix_of_first? {input : List Char} {lexeme : Lexeme}
    (h : first? input = some lexeme) : lexeme.text <+: input := by
  unfold first? at h
  split at h
  · simp at h
  · split at h
    · obtain rfl := Option.some.inj h
      exact text_isPrefix_number _
    · split at h
      · obtain rfl := Option.some.inj h
        exact List.takeWhile_prefix _
      · split at h
        · obtain rfl := Option.some.inj h
          exact text_isPrefix_colon _
        · obtain ⟨kind, _, rfl⟩ := Option.map_eq_some_iff.mp h
          exact List.take_prefix ..

/-- **A lexeme is never empty.** -/
theorem text_ne_nil_of_first? {input : List Char} {lexeme : Lexeme}
    (h : first? input = some lexeme) : lexeme.text ≠ [] := by
  unfold first? at h
  split at h
  · simp at h
  · rename_i c rest
    split at h
    · rename_i hdigit
      obtain rfl := Option.some.inj h
      unfold number
      simp only [List.takeWhile_cons_of_pos hdigit, List.dropWhile_cons_of_pos hdigit]
      split
      · unfold real; dsimp only; split <;> simp
      · unfold integer; split <;> simp
    · split at h
      · rename_i halpha
        obtain rfl := Option.some.inj h
        have : c.isAlphanum = true := by simp [Char.isAlphanum, halpha]
        simp [word, List.takeWhile_cons_of_pos this]
      · split at h
        · obtain rfl := Option.some.inj h
          unfold colon; split <;> simp
        · obtain ⟨kind, _, rfl⟩ := Option.map_eq_some_iff.mp h
          simp [mark]

end Lexeme

end MiniPascal
