import MiniPascal.Toml.Value

/-!
# Blanks, Comments and Line Ends in TOML

Only the space and the tab are blank in TOML, a line ends with a line feed or with
a carriage return and a line feed, and a comment runs from a number sign to the
end of its line.
-/

namespace MiniPascal.Toml

/-! ## §1 Within a line -/

def isTomlBlank (c : Char) : Bool := c = ' ' || c = '\t'

/-- A text without the blanks at its front. -/
def dropBlanks (text : List Char) : List Char := text.dropWhile isTomlBlank

/-- Whether a character may stand in a comment: anything but control characters,
the tab excepted. -/
def isCommentChar (c : Char) : Bool :=
  c = '\t' || (' ' ≤ c && c ≠ '\x7f')

def startsLineEnd : List Char → Bool
  | '\n' :: _ => true
  | '\r' :: '\n' :: _ => true
  | _ => false

/-- The text after what may stand at the end of a line: blanks, a comment and the
line end, or the end of the text. -/
def lineEnd (text : List Char) : Except Fault (List Char) :=
  let rest := match dropBlanks text with
    | '#' :: comment => comment.dropWhile isCommentChar
    | rest => rest
  match rest with
  | [] => .ok []
  | '\n' :: after => .ok after
  | '\r' :: '\n' :: after => .ok after
  | _ => .error (.unexpected rest)

/-! ## §2 Across lines -/

/-- The text after blanks, line ends and whole comments.  The flag tells whether
the text begins inside a comment. -/
def dropLayout (inComment : Bool) : List Char → Except Fault (List Char)
  | [] => .ok []
  | '\n' :: text => dropLayout false text
  | '\r' :: '\n' :: text => dropLayout false text
  | c :: text =>
    if inComment then
      if isCommentChar c then dropLayout true text else .error (.unexpected (c :: text))
    else if isTomlBlank c then dropLayout false text
    else if c = '#' then dropLayout true text
    else .ok (c :: text)

end MiniPascal.Toml
