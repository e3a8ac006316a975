import MiniPascal.Json.Document
import MiniPascal.Token.Basic

/-!
# Tokens as JSON

A token is a record of its kind and its value.  The type of the value tells the
kinds of values apart: a missing value is `null`, a text is a string, and of the
two kinds of numbers only the real ones have a point or a power of ten.
-/

namespace MiniPascal

def TokenValue.toScalar : TokenValue → Json.Scalar
  | text spelling => .string spelling
  | integer value => .integer value
  | real value => .real value

/-- The scalar of a value that may be missing. -/
def Token.valueScalar (token : Token) : Json.Scalar :=
  match token.value with
  | some value => value.toScalar
  | none => .null

def Token.toRecord (token : Token) : Json.Record :=
  [("type", .string token.kind.name), ("value", token.valueScalar)]

end MiniPascal
