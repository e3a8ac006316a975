import MiniPascal.Scan.Reading
import MiniPascal.Token.Json

/-!
# Token Dumps

A token dump lists the tokens of a program, the end of input included.  The text
dump has one line per token and is written while the program is scanned, so the
lines before a lexical error stand.  The JSON dump is one document and is written
only when the whole program has been scanned.
-/

namespace MiniPascal

/-! ## §1 Formats -/

inductive DumpFormat where
  | text
  | json
  deriving DecidableEq

/-- What dumping leaves. -/
structure TokenDump where
  output : String
  error? : Option LexicalError
  events : List Event
  scanner : Scanner

namespace TokenDump

/-! ## §2 Lines of text -/

/-- A token on a line, without the end of the line; a place goes before it. -/
def line (token : Token) (place? : Option Span) : String :=
  let plain := "type=" ++ token.kind.name ++ "\tvalue=" ++ token.valueText
  match place? with
  | some span => span.placeText ++ "\t" ++ plain
  | none => plain

/-- The lines that are written until the end of input or the first error. -/
def lines (positions : Bool) (scanner : Scanner) :
    List String × Option LexicalError × List Event × Scanner :=
  match _hfound : scanner.nextToken with
  | ⟨.error error, events, after⟩ => ([], some error, events, after)
  | ⟨.ok token, events, after⟩ =>
    let written := line token (if positions then some after.tokenSpan else none) ++ "\n"
    if _hinside : token.kind ≠ .endOfInput then
      let (more, error?, later, last) := lines positions after
      (written :: more, error?, events ++ later, last)
    else ([written], none, events, after)
termination_by scanner.remaining
decreasing_by
  have := @Scanner.remaining_nextToken_lt scanner token (by rw [_hfound]) _hinside
  rwa [_hfound] at this

/-- **The text dump.** -/
def text (positions : Bool) (scanner : Scanner) : TokenDump :=
  let (written, error?, events, after) := lines positions scanner
  ⟨String.join written, error?, events, after⟩

/-! ## §3 The JSON document -/

/-- A token as a record, with its place if asked. -/
def record (positions : Bool) (placed : PlacedToken) : Json.Record :=
  let place := if positions then
      [("line", Json.Scalar.integer placed.span.line),
       ("column", Json.Scalar.integer placed.span.column)]
    else []
  placed.token.toRecord ++ place

/-- **The JSON dump.**  Nothing is written of a program with a lexical error. -/
def json (positions : Bool) (scanner : Scanner) : TokenDump :=
  let reading := scanner.readAll
  let output := match reading.error? with
    | some _ => ""
    | none => Json.indented (reading.tokens.map (record positions)) ++ "\n"
  ⟨output, reading.error?, reading.events, reading.scanner⟩

def write (format : DumpFormat) (positions : Bool) (scanner : Scanner) : TokenDump :=
  match format with
  | .text => text positions scanner
  | .json => json positions scanner

end TokenDump

end MiniPascal
