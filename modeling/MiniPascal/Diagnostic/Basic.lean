import MiniPascal.Diagnostic.Excerpt
import MiniPascal.Scan.LexicalError

/-!
# Diagnostics

A diagnostic tells a user what is wrong with a program and where: a message with a
code, the place, excerpts of the program, notes and advice.  Its printed form has
one part per line and may set off the head of the first line in colour.
-/

namespace MiniPascal

/-! ## §1 Severity and codes -/

/-- How bad it is.  Scanning stops at the first problem, so all of them are
errors. -/
inductive Severity where
  | error
  deriving DecidableEq

namespace Severity

def name : Severity → String
  | error => "error"

def colour : Severity → String
  | error => "31"

end Severity

/-- A code that names one kind of diagnostic. -/
structure DiagnosticCode where
  family : String
  number : Nat
  deriving DecidableEq

namespace DiagnosticCode

/-- A character that begins no token. -/
def unexpectedCharacter : DiagnosticCode := ⟨"E", 1⟩

/-- The code with its number filled up to four digits. -/
def text (code : DiagnosticCode) : String :=
  let digits := decimal code.number
  code.family ++ String.ofList (List.replicate (4 - digits.length) '0' ++ digits)

def description (code : DiagnosticCode) : String :=
  "DiagnosticCode(" ++ code.text ++ ")"

end DiagnosticCode

/-! ## §2 Diagnostics -/

structure Diagnostic where
  severity : Severity
  message : String
  /-- Where it is; `Span.nowhere` leaves the place out. -/
  span : Span
  code? : Option DiagnosticCode
  notes : List String
  advice : List String
  excerpts : List Excerpt
  deriving DecidableEq

namespace Diagnostic

/-- An error with nothing but a message and a place. -/
def error (message : String) (span : Span) : Diagnostic :=
  ⟨.error, message, span, none, [], [], []⟩

/-- The diagnostic under a code, which takes the place of an earlier one. -/
def withCode (diagnostic : Diagnostic) (code : DiagnosticCode) : Diagnostic :=
  { diagnostic with code? := some code }

def withNote (diagnostic : Diagnostic) (note : String) : Diagnostic :=
  { diagnostic with notes := diagnostic.notes ++ [note] }

/-- The diagnostic with one more piece of advice. -/
def withAdvice (diagnostic : Diagnostic) (advice : String) : Diagnostic :=
  { diagnostic with advice := diagnostic.advice ++ [advice] }

def withExcerpt (diagnostic : Diagnostic) (excerpt : Excerpt) : Diagnostic :=
  { diagnostic with excerpts := diagnostic.excerpts ++ [excerpt] }

/-! ## §3 Printing -/

/-- The severity with the code, in colour if asked. -/
def head (diagnostic : Diagnostic) (inColour : Bool) : String :=
  let plain := match diagnostic.code? with
    | some code => diagnostic.severity.name ++ "[" ++ code.text ++ "]"
    | none => diagnostic.severity.name
  if inColour then "\x1b[1;" ++ diagnostic.severity.colour ++ "m" ++ plain ++ "\x1b[0m" else plain

/-- **The printed diagnostic.**  Every part ends its line. -/
def text (diagnostic : Diagnostic) (inColour : Bool) : String :=
  let place :=
    if diagnostic.span = .nowhere then "" else " --> " ++ diagnostic.span.placeText ++ "\n"
  diagnostic.head inColour ++ ": " ++ diagnostic.message ++ "\n" ++ place
    ++ String.join (diagnostic.excerpts.map fun excerpt => excerpt.text ++ "\n")
    ++ String.join (diagnostic.notes.map fun note => "  = note: " ++ note ++ "\n")
    ++ String.join (diagnostic.advice.map fun advice => "  = help: " ++ advice ++ "\n")

end Diagnostic

/-! ## §4 The diagnostic of a lexical error -/

namespace LexicalError

def code (_ : LexicalError) : DiagnosticCode := .unexpectedCharacter

/-- **The diagnostic of a lexical error** in a program.  A place that is not in the
program is named without an excerpt. -/
def diagnostic (error : LexicalError) (source : List Char) : Diagnostic :=
  let plain := Diagnostic.error error.summary error.span
    |>.withCode error.code
    |>.withNote ("scanning stopped at " ++ error.span.placeText)
    |>.withAdvice "remove the character or replace it with a valid token"
  match Excerpt.cut source error.span with
  | .ok excerpt => plain.withExcerpt (excerpt.withLabel "not valid here")
  | .error _ => plain

end LexicalError

end MiniPascal
