import MiniPascal.Log.Pattern
import MiniPascal.Log.Record
import MiniPascal.Text.Alphanumeric
import MiniPascal.Text.Blank
import MiniPascal.Text.Bytes
import MiniPascal.Text.Split

/-!
# Log Filters

A filter decides which log records are written.  It is a list of directives, each
with a threshold and perhaps with the records that it is about: those of origins
whose names begin in some way, those with some field, or those made inside a span,
which is a named stretch of a run.  Of the directives about a record the most
specific one decides.

A filter is written as directives with commas between them.  A directive may have a
name, then a span or a field in brackets, then an equals sign and a level.  A level
may also stand alone, and without one everything is let through:

    warn,pasct=debug,pasc_lex[{line}]=trace

Blanks around a directive do not count when its parts are looked for, but the words of
the parts are then read from the text with the blanks, at the same places.  So a level
with a blank beside it is not a level: alone it is taken for a name, which no origin
has, and behind an equals sign it spoils the filter, as do blanks in front of a
directive with an equals sign.
-/

namespace MiniPascal

/-! ## §1 Filters -/

/-- Which of the records of an origin a directive is about. -/
inductive LogScope where
  | all
  /-- Those that have a field of a name. -/
  | withField (name : String)
  /-- Those made inside some span. -/
  | inSpan
  deriving DecidableEq

namespace LogScope

/-- Whether a record is in a scope.  The message counts as a field.  This program
has no spans, so nothing is made inside one. -/
def holds (scope : LogScope) (record : LogRecord) : Bool :=
  match scope with
  | all => true
  | withField name => name = "message" || record.fields.any (·.name = name)
  | inSpan => false

/-- The name of the field that a record has to have, empty if there is none. -/
def fieldName : LogScope → String
  | withField name => name
  | _ => ""

end LogScope

structure LogDirective where
  /-- The beginning of the names of the origins that it is about; without it, all
  are meant. -/
  target? : Option String
  /-- The records of these origins that it is about. -/
  scope : LogScope
  /-- The greatest rank of a level that is let through; zero lets nothing
  through. -/
  threshold : Nat
  deriving DecidableEq

/-- A list of directives.  A later one takes the place of an earlier one about the
same records. -/
abbrev LogFilter := List LogDirective

namespace LogDirective

def covers (directive : LogDirective) (record : LogRecord) : Bool :=
  let ofOrigin := match directive.target? with
    | none => true
    | some target => target.toList.isPrefixOf record.origin.name.toList
  ofOrigin && directive.scope.holds record

/-- How specific the target of a directive is. -/
def targetLength (directive : LogDirective) : Nat :=
  match directive.target? with
  | none => 0
  | some target => target.utf8ByteSize + 1

/-- Whether a directive is at least as specific as another one: by its target, and
for equal targets by its field.  Of two fields the later in the alphabet counts as
more specific. -/
def atLeastAsSpecific (directive other : LogDirective) : Bool :=
  other.targetLength < directive.targetLength ||
    other.targetLength = directive.targetLength &&
      other.scope.fieldName ≤ directive.scope.fieldName

end LogDirective

namespace LogFilter

/-- Of two directives the more specific one, and of two equally specific ones the
later. -/
def moreSpecific (best? : Option LogDirective) (directive : LogDirective) :
    Option LogDirective :=
  match best? with
  | some best => if directive.atLeastAsSpecific best then some directive else some best
  | none => some directive

def deciding? (filter : LogFilter) (record : LogRecord) : Option LogDirective :=
  (filter.filter (·.covers record)).foldl moreSpecific none

/-- **Whether a filter lets a record through.** -/
def allows (filter : LogFilter) (record : LogRecord) : Bool :=
  match filter.deciding? record with
  | some directive => record.level.rank ≤ directive.threshold
  | none => false

/-- The filter that lets all records up to a level through. -/
def upTo (level : LogLevel) : LogFilter := [⟨none, .all, level.rank⟩]

/-- The filter of a level goes by the rank alone, whatever the origin. -/
theorem allows_upTo (level : LogLevel) (record : LogRecord) :
    allows (upTo level) record = decide (record.level.rank ≤ level.rank) := rfl

/-! ## §2 Reading a filter -/

/-- The threshold of a level that is given by its number. -/
def numberedThreshold? (text : List Char) : Option Nat :=
  let digits := match text with
    | '+' :: digits => digits
    | digits => digits
  if digits.isEmpty || !digits.all Char.isDigit then none
  else
    let significant := digits.dropWhile (· = '0')
    match significant with
    | [] => some 0
    | [d] => if d.toNat ≤ '5'.toNat then some (d.toNat - '0'.toNat) else none
    | _ => none

/-- The threshold of a level, given by its name in any case or by its number. -/
def threshold? (text : List Char) : Option Nat :=
  match String.ofList (text.map Char.toLower) with
  | "off" => some 0
  | "error" => some LogLevel.error.rank
  | "warn" => some LogLevel.warn.rank
  | "info" => some LogLevel.info.rank
  | "debug" => some LogLevel.debug.rank
  | "trace" => some LogLevel.trace.rank
  | _ => numberedThreshold? text

/-- The threshold behind an equals sign, where no level at all lets everything
through. -/
def assignedThreshold? (text : List Char) : Option Nat :=
  if text.isEmpty then some LogLevel.trace.rank else threshold? text

/-- Whether a directive may begin with a character. -/
def startsDirective (c : Char) : Bool :=
  isAlphanumeric c || c = '-' || c = ':' || c = '_' || c = '['

/-- The part of a directive in brackets, as places in its text. -/
structure BracketLayout where
  named : Bool
  /-- The place and length of a field in braces. -/
  field? : Option (Nat × Nat)
  /-- The length of all this, with the closing bracket. -/
  length : Nat
  rest : List Char

/-- The part in brackets, from a text behind the opening bracket: the name of a span,
perhaps empty, and perhaps a field in braces. -/
def bracketLayout? (text : List Char) : Option BracketLayout :=
  let endsSpan := fun c => c = ']' || c = '\x7b'
  let span := text.takeWhile (!endsSpan ·)
  let start := byteLength span + 1
  match text.dropWhile (!endsSpan ·) with
  | ']' :: rest => some ⟨true, none, start, rest⟩
  | '\x7b' :: inner =>
    let field := inner.takeWhile (· ≠ '\x7d')
    match inner.dropWhile (· ≠ '\x7d') with
    | '\x7d' :: ']' :: rest =>
      if field.isEmpty then none
      else some ⟨!span.isEmpty, some (start, byteLength field),
        start + byteLength field + 2, rest⟩
    | _ => none
  | _ => none

/-- The scope that a span and the text of a field describe.  A field with a value
belongs to a span, and so does any field behind the name of one; a field alone is one
of the records themselves. -/
def scope? (named : Bool) (field : List Char) : Option LogScope :=
  match field.dropWhile (· ≠ '=') with
  | [] => some (if named then .inSpan else .withField (String.ofList field))
  | _ :: value => if isFieldValue (value.takeWhile (· ≠ '=')) then some .inSpan else none

/-- One directive.  Its parts are found without the blanks around it, and their words
are cut from the whole text; a cut inside of a character is a fault. -/
def directive? (text : List Char) : Option LogDirective := do
  let shown := trimWhile isBlank text
  guard (shown.head?.any startsDirective)
  let endsName := fun c => c = '=' || c = '['
  let name := shown.takeWhile (!endsName ·)
  let length := byteLength name
  let start := length + 1
  match shown.dropWhile (!endsName ·) with
  | [] =>
    match threshold? text with
    | some threshold => return ⟨none, .all, threshold⟩
    | none => return ⟨some (String.ofList text), .all, LogLevel.trace.rank⟩
  | '=' :: _ =>
    let target ← takeBytes? length text
    let threshold ← assignedThreshold? (← dropBytes? start text)
    return ⟨some (String.ofList target), .all, threshold⟩
  | _ :: inner =>
    let target ← takeBytes? length text
    let target? := if name.isEmpty then none else some (String.ofList target)
    let layout ← bracketLayout? inner
    let scope ← match layout.field? with
      | none => some .inSpan
      | some (place, size) => do
        scope? layout.named (← sliceBytes? (start + place) (start + place + size) text)
    match layout.rest with
    | [] => return ⟨target?, scope, LogLevel.trace.rank⟩
    | '=' :: _ =>
      let level ← dropBytes? (start + layout.length + 1) text
      return ⟨target?, scope, ← assignedThreshold? level⟩
    | _ => none

/-- **The filter that a text describes**, if all its directives are sound.  A text
without directives lets errors through. -/
def ofText? (text : String) : Option LogFilter :=
  let parts := (pieces ',' text.toList).filter (!·.isEmpty)
  if parts.isEmpty then some (upTo .error) else parts.mapM directive?

/-- The filter in force: the one that the user describes, or else a level that
depends on whether more is to be logged. -/
def inForce (described? : Option String) (verbose : Bool) : LogFilter :=
  (described?.bind ofText?).getD (upTo (if verbose then .debug else .info))

end LogFilter

end MiniPascal
