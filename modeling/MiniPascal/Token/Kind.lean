/-!
# Kinds of Tokens

The closed set of token kinds of the language: punctuation, reserved words, names
and literals, and the end of the program.  Two kinds have no spelling in
programs: the backslash has a symbol that no program may contain, and real
division has neither a symbol nor a reserved word.
-/

namespace MiniPascal

/-! ## §1 The kinds -/

/-- What a token is, apart from the value that it carries. -/
inductive TokenKind where
  | plus
  | minus
  | asterisk
  | slash
  | backslash
  | comma
  | dot
  | colon
  | semicolon
  | leftParenthesis
  | rightParenthesis
  | assign
  | endOfInput
  | beginWord
  | endWord
  | programWord
  | varWord
  | integerType
  | realType
  | integerDivision
  /-- Division of real numbers; set aside, and spelled by no program. -/
  | realDivision
  | procedureWord
  | identifier
  | integerLiteral
  | realLiteral
  deriving DecidableEq

namespace TokenKind

/-- Every kind, in the order of the declaration. -/
def all : List TokenKind :=
  [plus, minus, asterisk, slash, backslash, comma, dot, colon, semicolon,
   leftParenthesis, rightParenthesis, assign, endOfInput, beginWord, endWord,
   programWord, varWord, integerType, realType, integerDivision, realDivision,
   procedureWord, identifier, integerLiteral, realLiteral]

theorem mem_all (kind : TokenKind) : kind ∈ all := by
  cases kind <;> decide

/-! ## §2 Names and spellings -/

def name : TokenKind → String
  | plus => "PLUS"
  | minus => "MINUS"
  | asterisk => "ASTERISK"
  | slash => "SLASH"
  | backslash => "BACKSLASH"
  | comma => "COMMA"
  | dot => "DOT"
  | colon => "COLON"
  | semicolon => "SEMICOLON"
  | leftParenthesis => "LEFT_PARENTHESIS"
  | rightParenthesis => "RIGHT_PARENTHESIS"
  | assign => "ASSIGN"
  | endOfInput => "EOF"
  | beginWord => "BEGIN"
  | endWord => "END"
  | programWord => "PROGRAM"
  | varWord => "VAR"
  | integerType => "INTEGER_TYPE"
  | realType => "REAL_TYPE"
  | integerDivision => "INTEGER_DIV"
  | realDivision => "REAL_DIV"
  | procedureWord => "PROCEDURE"
  | identifier => "IDENTIFIER"
  | integerLiteral => "INTEGER_LITERAL"
  | realLiteral => "REAL_LITERAL"

def ofName? (name : String) : Option TokenKind :=
  all.find? fun kind => kind.name == name

/-- The name of a kind finds the kind again. -/
theorem ofName?_name (kind : TokenKind) : ofName? kind.name = some kind := by
  cases kind <;> rfl

def symbol? : TokenKind → Option String
  | plus => some "+"
  | minus => some "-"
  | asterisk => some "*"
  | slash => some "/"
  | backslash => some "\\"
  | comma => some ","
  | dot => some "."
  | colon => some ":"
  | semicolon => some ";"
  | leftParenthesis => some "("
  | rightParenthesis => some ")"
  | assign => some ":="
  | _ => none

/-- The reserved word of a kind, in upper case. -/
def reservedWord? : TokenKind → Option String
  | programWord => some "PROGRAM"
  | varWord => some "VAR"
  | integerDivision => some "DIV"
  | integerType => some "INTEGER"
  | realType => some "REAL"
  | beginWord => some "BEGIN"
  | endWord => some "END"
  | procedureWord => some "PROCEDURE"
  | _ => none

/-- Whether a kind is written as a reserved word. -/
def isReserved (kind : TokenKind) : Bool :=
  kind.reservedWord?.isSome

/-- The kind of a punctuation mark of one character.  A colon is not among them,
as the character after it decides what it is. -/
def ofMark? : Char → Option TokenKind
  | ',' => some comma
  | ';' => some semicolon
  | '.' => some dot
  | '+' => some plus
  | '-' => some minus
  | '*' => some asterisk
  | '/' => some slash
  | '(' => some leftParenthesis
  | ')' => some rightParenthesis
  | _ => none

/-- A mark is the symbol of its kind. -/
theorem symbol?_of_ofMark? {c : Char} {kind : TokenKind} (h : ofMark? c = some kind) :
    kind.symbol? = some (String.singleton c) := by
  unfold ofMark? at h
  split at h <;> simp at h <;> subst h <;> rfl

end TokenKind

end MiniPascal
