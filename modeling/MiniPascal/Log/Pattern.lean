import MiniPascal.Numeral.Hexadecimal
import MiniPascal.Text.Alphanumeric
import MiniPascal.Text.Blank

/-!
# Patterns for Field Values

A directive of a log filter may ask for the value of a field, by a truth value, by a
number or by a pattern, which is a regular expression.  No record is ever compared
with a pattern here, but a pattern that is not sound spoils the filter, so this
module tells which ones are sound.

A pattern cannot hold a comma, an equals sign or a closing brace, because these end it
in a filter.  So whatever begins with a brace is left open, and there are no bounded
repetitions.  Patterns are about Unicode text, but the tables of its classes, of its
word boundaries and of its letter case are left out: what needs them is not sound,
unless Unicode is switched off in the pattern.
-/

namespace MiniPascal

/-! ## §1 Modes -/

/-- The switches of a pattern that decide what is sound. -/
structure PatternMode where
  extended : Bool
  /-- The pattern is about characters, not about ASCII codes. -/
  unicode : Bool
  /-- Capital and small letters are the same. -/
  ignoresCase : Bool
  deriving DecidableEq

namespace PatternMode

def initial : PatternMode := ⟨false, true, false⟩

/-- Turns one switch on or off.  Switches that do not matter here change nothing;
unknown ones are faults. -/
def switch? (mode : PatternMode) (letter : Char) (on : Bool) : Option PatternMode :=
  match letter with
  | 'x' => some { mode with extended := on }
  | 'u' => some { mode with unicode := on }
  | 'i' => some { mode with ignoresCase := on }
  | 'm' | 's' | 'U' | 'R' => some mode
  | _ => none

/-- Whether a comparison without letter case would need the tables of Unicode. -/
def needsCaseTable (mode : PatternMode) : Bool := mode.unicode && mode.ignoresCase

/-- Passes over one blank or comment, if the mode has them and one is next. -/
def passBlank? (mode : PatternMode) : List Char → Option (List Char)
  | [] => none
  | c :: text =>
    if !mode.extended then none
    else if isBlank c then some text
    else if c = '#' then some (text.dropWhile (· ≠ '\n'))
    else none

/-- Passes over all blanks and comments that are next, `fuel` of them at most. -/
def passBlanks (mode : PatternMode) : Nat → List Char → List Char
  | 0, text => text
  | fuel + 1, text =>
    match mode.passBlank? text with
    | some text => passBlanks mode fuel text
    | none => text

end PatternMode

/-! ## §2 Escapes -/

/-- What one part of a pattern stands for. -/
inductive PatternAtom where
  /-- One character, by its code point. -/
  | one (code : Nat)
  | anyOf
  /-- A place between characters. -/
  | place

/-- The atom of a code point in a fixed number of hexadecimal digits.  Two digits
are an ASCII code where Unicode is off. -/
def hexAtom? (mode : PatternMode) (digits : Nat) (text : List Char) :
    Option (PatternAtom × List Char) := do
  guard (digits ≤ text.length)
  let c ← codePoint? (text.take digits)
  guard (mode.unicode || digits ≠ 2 || c.toNat < 0x80)
  return (.one c.toNat, text.drop digits)

/-- The atom of an escape, from a text behind its backslash.  All ASCII characters
but letters, digits and angle brackets may be escaped to stand for themselves. -/
def escapeAtom? (mode : PatternMode) : List Char → Option (PatternAtom × List Char)
  | [] => none
  | c :: text =>
    match c with
    | 'x' => hexAtom? mode 2 text
    | 'u' => hexAtom? mode 4 text
    | 'U' => hexAtom? mode 8 text
    | 'd' | 's' | 'w' => if mode.unicode then none else some (.anyOf, text)
    | 'b' | 'B' | '<' | '>' => if mode.unicode then none else some (.place, text)
    | 'A' | 'z' => some (.place, text)
    | 'a' => some (.one 7, text)
    | 't' => some (.one 9, text)
    | 'n' => some (.one 10, text)
    | 'v' => some (.one 11, text)
    | 'f' => some (.one 12, text)
    | 'r' => some (.one 13, text)
    | c => if c.isAlphanum || 0x80 ≤ c.toNat then none else some (.one c.toNat, text)

/-! ## §3 Classes -/

def patternClassNames : List String :=
  ["alnum", "alpha", "ascii", "blank", "cntrl", "digit", "graph", "lower", "print", "punct",
   "space", "upper", "word", "xdigit"]

/-- What stands behind a named class such as `[:alpha:]`, from a text behind its
opening bracket. -/
def passNamedClass? : List Char → Option (List Char)
  | ':' :: text =>
    let text := if text.head? = some '^' then text.tail else text
    match text.dropWhile (· ≠ ':') with
    | ':' :: ']' :: rest =>
      if patternClassNames.contains (String.ofList (text.takeWhile (· ≠ ':'))) then some rest
      else none
    | _ => none
  | _ => none

/-- Passes over the beginning of a class, from a text behind its opening bracket: a
caret, which needs Unicode, and then a bracket or dashes that stand for themselves. -/
def passClassStart? (mode : PatternMode) (text : List Char) : Option (List Char) :=
  let negated := text.head? = some '^'
  let body := if negated then text.tail else text
  if negated && !mode.unicode then none
  else if body.head? = some ']' then some body.tail
  else some (body.dropWhile (· = '-'))

/-- One member of a class, or one end of a range. -/
def classAtom? (mode : PatternMode) : List Char → Option (PatternAtom × List Char)
  | [] => none
  | '\\' :: text =>
    match escapeAtom? mode text with
    | some (.place, _) => none
    | result => result
  | c :: text => if mode.unicode || c.toNat < 0x80 then some (.one c.toNat, text) else none

/-- Whether two atoms are the ends of a range. -/
def isPatternRange : PatternAtom → PatternAtom → Bool
  | .one first, .one last => first ≤ last
  | _, _ => false

/-- What stands behind a class, from a text inside of it, with `depth` classes around
it and for `fuel` steps at most. -/
def passClass? (mode : PatternMode) : Nat → Nat → List Char → Option (List Char)
  | 0, _, _ => none
  | fuel + 1, depth, text =>
    let pass := fun text => mode.passBlanks fuel text
    match pass text with
    | ']' :: rest => if depth = 0 then some rest else passClass? mode fuel (depth - 1) rest
    | '[' :: rest =>
      match passNamedClass? rest with
      | some rest => passClass? mode fuel depth rest
      | none => do passClass? mode fuel (depth + 1) (← passClassStart? mode (pass rest))
    | '&' :: '&' :: rest => passClass? mode fuel depth rest
    | '-' :: '-' :: rest => passClass? mode fuel depth rest
    | '~' :: '~' :: rest => passClass? mode fuel depth rest
    | text => do
      let (first, rest) ← classAtom? mode text
      let rest := pass rest
      let behind := pass rest.tail
      -- a dash is the middle of a range unless a bracket or another dash is next
      if rest.head? ≠ some '-' || behind.head? = some ']' || behind.head? = some '-' then
        passClass? mode fuel depth rest
      else
        let (last, rest) ← classAtom? mode behind
        guard (isPatternRange first last)
        passClass? mode fuel depth rest

/-! ## §4 Groups -/

/-- Whether a text is the name of a group. -/
def isGroupName : List Char → Bool
  | [] => false
  | c :: text =>
    (c = '_' || isAlphanumeric c && !c.isDigit) &&
      text.all fun c => isAlphanumeric c || c = '_' || c = '.' || c = '[' || c = ']'

inductive GroupStart where
  /-- A group, which may have a mode of its own and a name. -/
  | group (mode : PatternMode) (name? : Option (List Char))
  /-- A change of mode for the rest of the group around it. -/
  | change (mode : PatternMode)

/-- Reads switches up to a colon, which begins a group, or up to a parenthesis, which
needs one switch at least.  A minus sign stands before the switches to be turned off. -/
def switches? (mode : PatternMode) (seen : List Char) :
    List Char → Option (GroupStart × List Char)
  | [] => none
  | c :: text =>
    if c = ':' then if seen.head? = some '-' then none else some (.group mode none, text)
    else if c = ')' then
      if seen.isEmpty || seen.head? = some '-' then none else some (.change mode, text)
    else if seen.contains c then none
    else if c = '-' then switches? mode (c :: seen) text
    else do switches? (← mode.switch? c (!seen.contains '-')) (c :: seen) text

/-- A named group, from a text behind the opening angle bracket. -/
def namedGroup? (mode : PatternMode) (text : List Char) : Option (GroupStart × List Char) :=
  let name := text.takeWhile (· ≠ '>')
  match text.dropWhile (· ≠ '>') with
  | _ :: rest => if isGroupName name then some (.group mode (some name), rest) else none
  | [] => none

/-- What begins with an opening parenthesis, from a text behind it. -/
def groupStart? (mode : PatternMode) : List Char → Option (GroupStart × List Char)
  | '?' :: 'P' :: '<' :: text => namedGroup? mode text
  | '?' :: '<' :: text => namedGroup? mode text
  | '?' :: text => switches? mode [] text
  | text => some (.group mode none, text)

/-! ## §5 Sound patterns -/

/-- What is known in the middle of a pattern. -/
structure PatternState where
  mode : PatternMode
  /-- The modes of the groups around, the nearest one first. -/
  outer : List PatternMode
  names : List (List Char)
  /-- Whether there is something that can be repeated. -/
  repeatable : Bool

/-- Reads one part of a pattern that goes on with a character. -/
def PatternState.step? (state : PatternState) (c : Char) (text : List Char) :
    Option (PatternState × List Char) :=
  let mode := state.mode
  let item := { state with repeatable := true }
  match c with
  | '(' =>
    match groupStart? mode (mode.passBlanks text.length text) with
    | some (.group inner name?, rest) =>
      if name?.any state.names.contains then none
      else some (⟨inner, mode :: state.outer, name?.toList ++ state.names, false⟩, rest)
    | some (.change mode, rest) =>
      some ({ state with mode := mode, repeatable := false }, rest)
    | none => none
  | ')' =>
    match state.outer with
    | mode :: outer => some ({ item with mode := mode, outer := outer }, text)
    | [] => none
  | '|' => some ({ state with repeatable := false }, text)
  | '[' => do
    guard !mode.needsCaseTable
    let body ← passClassStart? mode (mode.passBlanks text.length text)
    return (item, ← passClass? mode (text.length + 1) 0 body)
  | '\\' => do
    let (atom, rest) ← escapeAtom? mode text
    match atom with
    | .one _ => guard !mode.needsCaseTable
    | _ => pure ()
    return (item, rest)
  | '?' | '*' | '+' => if state.repeatable then some (item, text) else none
  | '\x7b' => none
  | '^' | '$' => some (item, text)
  | '.' => if mode.unicode then some (item, text) else none
  | _ => if mode.needsCaseTable then none else some (item, text)

/-- Whether a pattern is sound from some state on, for `fuel` parts at most. -/
def PatternState.isSound : Nat → PatternState → List Char → Bool
  | _, state, [] => state.outer.isEmpty
  | 0, _, _ => false
  | fuel + 1, state, c :: text =>
    match state.mode.passBlank? (c :: text) with
    | some rest => isSound fuel state rest
    | none =>
      match state.step? c text with
      | some (state, rest) => isSound fuel state rest
      | none => false

/-- **Whether a pattern is sound.**  Each of its parts has a character at least. -/
def isPattern (text : List Char) : Bool :=
  PatternState.isSound text.length ⟨.initial, [], [], false⟩ text

/-! ## §6 Field values -/

/-- Whether a text is a number without a sign. -/
def isUnsignedNumber (text : List Char) : Bool :=
  let whole := text.takeWhile Char.isDigit
  let behind := text.dropWhile Char.isDigit
  let (fraction, rest) := match behind with
    | '.' :: digits => (digits.takeWhile Char.isDigit, digits.dropWhile Char.isDigit)
    | rest => ([], rest)
  let exponent := match rest.tail with
    | '+' :: digits => digits
    | '-' :: digits => digits
    | digits => digits
  ["inf", "infinity", "nan"].contains (String.ofList (text.map Char.toLower)) ||
    !(whole.isEmpty && fraction.isEmpty) &&
      (rest.isEmpty || (rest.head?.map Char.toLower = some 'e' && !exponent.isEmpty &&
        exponent.all Char.isDigit))

/-- **Whether a text is the value of a field in a directive.**  Truth values and most
numbers are sound as patterns too; the others are numbers with a plus sign. -/
def isFieldValue : List Char → Bool
  | '+' :: text => isUnsignedNumber text
  | text => isPattern text

end MiniPascal
