import MiniPascal.Location
import MiniPascal.Text.Blank

/-!
# Separators

What stands between the tokens of a program: blanks, and comments in braces.
Comments do not nest, so the first closing brace ends a comment.  A comment that
is never closed runs to the end of the program.

`Separator.split` takes the separators off the front of a text.  Nothing is lost
by it (`spellAll_append_of_split`), and what is left begins with no separator
(`not_starts_of_split`).
-/

namespace MiniPascal

/-! ## §1 Separators and their spelling -/

inductive Separator where
  | blank (c : Char)
  /-- A comment with the text between its braces. -/
  | comment (body : List Char)
  /-- A comment that is never closed, with the text after its opening brace. -/
  | openComment (body : List Char)
  deriving DecidableEq

namespace Separator

def spell : Separator → List Char
  | blank c => [c]
  | comment body => '\x7b' :: (body ++ ['\x7d'])
  | openComment body => '\x7b' :: body

/-- The characters that several separators are written with. -/
def spellAll (separators : List Separator) : List Char :=
  separators.flatMap spell

@[simp]
theorem spellAll_nil : spellAll [] = [] := rfl

@[simp]
theorem spellAll_cons (s : Separator) (separators : List Separator) :
    spellAll (s :: separators) = s.spell ++ spellAll separators := rfl

/-! ## §2 Taking separators off a text -/

/-- Whether a character begins a separator. -/
def starts (c : Char) : Bool :=
  isBlank c || c == '\x7b'

/-- The separators at the front of a text, and the text after them. -/
def split : List Char → List Separator × List Char
  | [] => ([], [])
  | c :: text =>
    if isBlank c then
      let (separators, rest) := split text
      (blank c :: separators, rest)
    else if c = '\x7b' then
      match _hclosed : text.dropWhile (· ≠ '\x7d') with
      | [] => ([openComment text], [])
      | _ :: after =>
        let (separators, rest) := split after
        (comment (text.takeWhile (· ≠ '\x7d')) :: separators, rest)
    else ([], c :: text)
termination_by text => text.length
decreasing_by
  · simp
  · have := (text.dropWhile_sublist (· ≠ '\x7d')).length_le
    rw [_hclosed] at this
    simp at this ⊢
    omega

/-- A closing brace stands where a search for one stops. -/
theorem head_dropWhile_brace {text after : List Char} {c : Char}
    (h : text.dropWhile (· ≠ '\x7d') = c :: after) : c = '\x7d' := by
  have := List.head?_dropWhile_not (· ≠ '\x7d') text
  simp only [h, List.head?_cons] at this
  simpa using this

/-- **Nothing is lost.**  The separators taken off a text, written before what is
left of it, are that text. -/
theorem spellAll_append_of_split (text : List Char) :
    spellAll (split text).1 ++ (split text).2 = text := by
  fun_induction split text with
  | case1 => rfl
  | case2 c text hblank separators rest hsplit ih =>
      simp only [hsplit] at ih
      simp [spell, ih]
  | case3 text hopen hblank =>
      simp [spell]
  | case4 text c after hclosed separators rest hsplit hblank ih =>
      -- the search for the end of the comment has stopped at a brace
      have hc := head_dropWhile_brace hclosed
      subst hc
      have hbody := List.takeWhile_append_dropWhile (p := (· ≠ '\x7d')) (l := text)
      simp only [hsplit] at ih
      rw [hclosed] at hbody
      simp only [spellAll_cons, spell, List.append_assoc, List.cons_append, ih]
      exact congrArg _ hbody
  | case5 c text hblank hbrace => rfl

/-- **Everything is taken.**  What is left of a text begins with no separator. -/
theorem not_starts_of_split {text rest : List Char} {c : Char}
    (h : (split text).2 = c :: rest) : starts c = false := by
  fun_induction split text with
  | case1 => simp at h
  | case2 d text hblank separators left hsplit ih =>
      exact ih (by rw [hsplit]; exact h)
  | case3 text hopen hblank => simp at h
  | case4 text d after hclosed separators left hsplit hblank ih =>
      exact ih (by rw [hsplit]; exact h)
  | case5 d text hblank hbrace =>
      obtain ⟨rfl, rfl⟩ := List.cons.inj h
      simp [starts, hblank, hbrace]

/-! ## §3 Comments left open -/

/-- The place where the body of an unclosed comment begins, if one is among the
separators that begin at `here`. -/
def openAt? (here : Location) : List Separator → Option Location
  | [] => none
  | openComment _ :: _ => some (here.next '\x7b')
  | s :: separators => openAt? (here.advance s.spell) separators

end Separator

end MiniPascal
