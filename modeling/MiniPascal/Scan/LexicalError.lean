import MiniPascal.Location
import MiniPascal.Numeral.Decimal

/-!
# Lexical Errors

A scan fails at the first character that begins neither a separator nor a
lexeme.  The error names that character and the place where it stands.
-/

namespace MiniPascal

/-- A line and column in messages. -/
def Span.placeText (span : Span) : String :=
  naturalText span.line ++ ":" ++ naturalText span.column

/-- A character that begins no token. -/
structure LexicalError where
  character : Char
  span : Span
  deriving DecidableEq

namespace LexicalError

/-- What is wrong, without the place. -/
def summary (error : LexicalError) : String :=
  "unexpected character '" ++ String.singleton error.character ++ "'"

/-- What is wrong and where. -/
def message (error : LexicalError) : String :=
  error.summary ++ " at " ++ error.span.placeText

end LexicalError

end MiniPascal
