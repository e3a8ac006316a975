import MiniPascal.Log.Record
import MiniPascal.Numeral.Decimal
import MiniPascal.Token.Kind

/-!
# Scanning Events

What a scanner reports while it works: each token it finds, each literal that is
too large and denotes the largest number of its type instead, and a comment that
is never closed.
-/

namespace MiniPascal

inductive Event where
  /-- A token begins at a line and column. -/
  | token (kind : TokenKind) (line column : Nat)
  /-- An integer literal, as it is written, is too large. -/
  | integerSaturated (literal : String)
  /-- A real literal, as it is written, is too large. -/
  | realSaturated (literal : String)
  /-- The comment whose body begins at a line and column is never closed. -/
  | openComment (line column : Nat)
  deriving DecidableEq

namespace Event

/-- The log record of an event.  Tokens are traced; what a reader of a program
may not expect is for debugging. -/
def record : Event → LogRecord
  | token kind line column =>
      ⟨.trace, .tokens, "token",
        [.bare "kind" kind.name, .bare "line" (naturalText line),
         .bare "column" (naturalText column)]⟩
  | integerSaturated literal =>
      ⟨.debug, .numbers, "integer literal saturated",
        [.inQuotes "literal" literal]⟩
  | realSaturated literal =>
      ⟨.debug, .numbers, "real literal saturated",
        [.inQuotes "literal" literal]⟩
  | openComment line column =>
      ⟨.debug, .comments, "comment runs to end of input",
        [.bare "line" (naturalText line), .bare "column" (naturalText column)]⟩

end Event

end MiniPascal
