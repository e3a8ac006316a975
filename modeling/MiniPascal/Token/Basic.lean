import MiniPascal.Numeral.Layout
import MiniPascal.Token.Kind

/-!
# Tokens

A token is a kind with an optional value: a text, a whole number or a real
number.  Tokens may be formed freely; those that a program is scanned into lack a
value only at the end of input.
-/

namespace MiniPascal

/-! ## §1 Values -/

inductive TokenValue where
  /-- The spelling of a mark, a reserved word or a name. -/
  | text (spelling : String)
  | integer (value : Int)
  | real (value : Binary64)
  deriving DecidableEq

namespace TokenValue

def plainText : TokenValue → String
  | text spelling => spelling
  | integer value => integerText value
  | real value => value.plainText

/-- The spelling, if the value is a text. -/
def asText? : TokenValue → Option String
  | text spelling => some spelling
  | _ => none

/-- The number, if the value is a whole number. -/
def asInteger? : TokenValue → Option Int
  | integer value => some value
  | _ => none

/-- The number, if the value is a real number. -/
def asReal? : TokenValue → Option Binary64
  | real value => some value
  | _ => none

/-- Equality of values, where real numbers are compared as numbers: the two zeros
are equal, and what is not a number equals nothing. -/
def equals : TokenValue → TokenValue → Bool
  | text left, text right => left == right
  | integer left, integer right => left == right
  | real left, real right => left.equals right
  | _, _ => false

end TokenValue

/-! ## §2 Tokens -/

structure Token where
  kind : TokenKind
  value : Option TokenValue
  deriving DecidableEq

namespace Token

/-- The largest whole number that a literal can denote. -/
def largestInteger : Nat := Nat.pow 2 63 - 1

def endOfInput : Token := ⟨.endOfInput, none⟩

def spelled (kind : TokenKind) (spelling : String) : Token := ⟨kind, some (.text spelling)⟩

/-- A punctuation token, with the symbol of its kind as the value. -/
def mark (kind : TokenKind) : Token := ⟨kind, kind.symbol?.map .text⟩

/-- A name, as it is written. -/
def identifier (name : String) : Token := spelled .identifier name

def integer (value : Int) : Token := ⟨.integerLiteral, some (.integer value)⟩

def real (value : Binary64) : Token := ⟨.realLiteral, some (.real value)⟩

/-- Whether a token is of a given kind. -/
def isOf (token : Token) (kind : TokenKind) : Bool := token.kind == kind

/-- The plain text of the value, or `None` where there is none. -/
def valueText (token : Token) : String :=
  match token.value with
  | some value => value.plainText
  | none => "None"

/-- A token in a message: its kind and its value. -/
def description (token : Token) : String :=
  "Token(" ++ token.kind.name ++ ", " ++ token.valueText ++ ")"

/-- Equality of tokens, with real values compared as numbers. -/
def equals (left right : Token) : Bool :=
  left.kind == right.kind && match left.value, right.value with
    | none, none => true
    | some x, some y => x.equals y
    | _, _ => false

end Token

end MiniPascal
