/-!
# Log Records

A log record has a level, the part of the program that it comes from, a message
and some named fields.  It is written on one line.
-/

namespace MiniPascal

/-! ## §1 Levels and origins -/

/-- How much a log record matters, from the most to the least. -/
inductive LogLevel where
  | error
  | warn
  | info
  | debug
  | trace
  deriving DecidableEq

namespace LogLevel

def name : LogLevel → String
  | error => "ERROR"
  | warn => "WARN"
  | info => "INFO"
  | debug => "DEBUG"
  | trace => "TRACE"

/-- The levels in order; the more a level lets through, the higher its rank. -/
def rank : LogLevel → Nat
  | error => 1
  | warn => 2
  | info => 3
  | debug => 4
  | trace => 5

end LogLevel

/-- The part of the program that a log record comes from. -/
inductive LogOrigin where
  | commands
  /-- The command that dumps the tokens of a source. -/
  | dumping
  /-- The scanner, which turns text into tokens. -/
  | tokens
  /-- The part of the scanner that reads numbers. -/
  | numbers
  /-- The part of the scanner that passes over comments. -/
  | comments
  deriving DecidableEq

/-- The name of a part, by which log filters choose records.  It is a path: what a
part belongs to stands before it. -/
def LogOrigin.name : LogOrigin → String
  | commands => "pasct::commands"
  | dumping => "pasct::commands::lex"
  | tokens => "pasc_lex::lexer::core"
  | numbers => "pasc_lex::lexer::number"
  | comments => "pasc_lex::lexer::comment"

/-! ## §2 Records -/

structure LogField where
  name : String
  /-- The value, as text. -/
  value : String
  /-- Whether a log line puts the value in quotation marks. -/
  quoted : Bool
  deriving DecidableEq

structure LogRecord where
  level : LogLevel
  origin : LogOrigin
  message : String
  fields : List LogField
  deriving DecidableEq

namespace LogField

/-- A field whose value stands in a log line as it is. -/
def bare (name value : String) : LogField := ⟨name, value, false⟩

/-- A field whose value is quoted in a log line. -/
def inQuotes (name value : String) : LogField := ⟨name, value, true⟩

def text (field : LogField) : String :=
  field.name ++ "=" ++ if field.quoted then "\"" ++ field.value ++ "\"" else field.value

end LogField

/-- A record on its line: level, message and fields with blanks between them. -/
def LogRecord.line (record : LogRecord) : String :=
  " ".intercalate (record.level.name :: record.message :: record.fields.map LogField.text) ++ "\n"

end MiniPascal
