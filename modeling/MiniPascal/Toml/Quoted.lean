import MiniPascal.Numeral.Hexadecimal
import MiniPascal.Toml.Blank

/-!
# Quoted Text in TOML

TOML has four kinds of strings.  Quotation marks enclose text with escapes,
apostrophes text without; a single mark encloses text on one line, three of them
text on several lines.  Each function here starts behind the opening marks and
gives the text with what follows the closing marks.
-/

namespace MiniPascal.Toml

/-! ## §1 Characters and escapes -/

/-- Whether a character may stand in a string as it is. -/
def isStringChar (c : Char) : Bool := isCommentChar c

/-- The character that one letter after a backslash stands for. -/
def letterEscape? : Char → Option Char
  | 'b' => some '\x08'
  | 't' => some '\t'
  | 'n' => some '\n'
  | 'f' => some '\x0c'
  | 'r' => some '\r'
  | '"' => some '"'
  | '\\' => some '\\'
  | _ => none

/-- A character put before the text that a reader gives. -/
def prepend (c : Char) (rest : Except Fault (List Char × List Char)) :
    Except Fault (List Char × List Char) :=
  rest.map fun (text, after) => (c :: text, after)

/-! ## §2 Text on one line -/

def literalLine : List Char → Except Fault (List Char × List Char)
  | [] => .error (.unexpected [])
  | c :: text =>
    if c = '\'' then .ok ([], text)
    else if isStringChar c then prepend c (literalLine text)
    else .error (.unexpected (c :: text))

/-- The text up to the closing quotation mark. -/
def quotedLine : List Char → Except Fault (List Char × List Char)
  | [] => .error (.unexpected [])
  | '"' :: text => .ok ([], text)
  | '\\' :: 'u' :: a :: b :: c :: d :: text =>
    match codePoint? [a, b, c, d] with
    | some x => prepend x (quotedLine text)
    | none => .error (.unexpected text)
  | '\\' :: 'U' :: a :: b :: c :: d :: e :: f :: g :: h :: text =>
    match codePoint? [a, b, c, d, e, f, g, h] with
    | some x => prepend x (quotedLine text)
    | none => .error (.unexpected text)
  | '\\' :: letter :: text =>
    match letterEscape? letter with
    | some x => prepend x (quotedLine text)
    | none => .error (.unexpected text)
  | c :: text =>
    if isStringChar c ∧ c ≠ '\\' then prepend c (quotedLine text)
    else .error (.unexpected (c :: text))

/-! ## §3 Text on several lines -/

/-- What stands behind the three closing marks.  Up to two more of the marks there
belong to the text. -/
def closing (mark : Char) (text : List Char) : List Char × List Char :=
  let extra := (text.takeWhile (· = mark)).take 2
  (extra, text.drop extra.length)

/-- The text without a line end at its front: one right behind the opening marks
does not belong to the string. -/
def dropFirstLineEnd : List Char → List Char
  | '\n' :: text => text
  | '\r' :: '\n' :: text => text
  | text => text

/-- The text up to the three closing apostrophes.  A line end counts as a line
feed. -/
def literalLines : List Char → Except Fault (List Char × List Char)
  | [] => .error (.unexpected [])
  | '\'' :: '\'' :: '\'' :: text => .ok (closing '\'' text)
  | '\n' :: text => prepend '\n' (literalLines text)
  | '\r' :: '\n' :: text => prepend '\n' (literalLines text)
  | c :: text =>
    if isStringChar c then prepend c (literalLines text)
    else .error (.unexpected (c :: text))

/-- The text up to the three closing quotation marks.  A backslash at the end of a
line takes the blanks and line ends after it out of the text; the flag tells
whether that is going on. -/
def quotedLines (skipping : Bool) : List Char → Except Fault (List Char × List Char)
  | [] => .error (.unexpected [])
  | '"' :: '"' :: '"' :: text => .ok (closing '"' text)
  | '\n' :: text =>
    if skipping then quotedLines true text else prepend '\n' (quotedLines false text)
  | '\r' :: '\n' :: text =>
    if skipping then quotedLines true text else prepend '\n' (quotedLines false text)
  | '\\' :: 'u' :: a :: b :: c :: d :: text =>
    match codePoint? [a, b, c, d] with
    | some x => prepend x (quotedLines false text)
    | none => .error (.unexpected text)
  | '\\' :: 'U' :: a :: b :: c :: d :: e :: f :: g :: h :: text =>
    match codePoint? [a, b, c, d, e, f, g, h] with
    | some x => prepend x (quotedLines false text)
    | none => .error (.unexpected text)
  | '\\' :: letter :: text =>
    if startsLineEnd (dropBlanks (letter :: text)) then quotedLines true (letter :: text)
    else match letterEscape? letter with
      | some x => prepend x (quotedLines false text)
      | none => .error (.unexpected text)
  | c :: text =>
    if skipping ∧ isTomlBlank c then quotedLines true text
    else if isStringChar c ∧ c ≠ '\\' then prepend c (quotedLines false text)
    else .error (.unexpected (c :: text))

/-! ## §4 Strings -/

/-- The string at the front of a text that begins with a quotation mark or an
apostrophe. -/
def quoted : List Char → Except Fault (List Char × List Char)
  | '"' :: '"' :: '"' :: text => quotedLines false (dropFirstLineEnd text)
  | '"' :: text => quotedLine text
  | '\'' :: '\'' :: '\'' :: text => literalLines (dropFirstLineEnd text)
  | '\'' :: text => literalLine text
  | text => .error (.unexpected text)

end MiniPascal.Toml
