import MiniPascal.Numeral.Hexadecimal
import MiniPascal.Numeral.Shortest

/-!
# The Grammar of JSON

Which texts are JSON documents, and the values that they stand for, said without a parser.
What a string stands for is a text, so a surrogate counts only as half of a pair.

A number is kept as it is written.  Whether it has a point or a power of ten is a matter of
writing, and readers of numbers may go by it.
-/

namespace MiniPascal.Json

/-! ## §1 Values -/

/-- A number as it is written. -/
structure Numeral where
  negative : Bool
  /-- The digits before the point. -/
  whole : List Char
  /-- The digits after the point, if there is one. -/
  fraction? : Option (List Char)
  /-- The power of ten behind the letter `e`, if there is one. -/
  power? : Option Int
  deriving DecidableEq

inductive Value where
  | null
  | boolean (truth : Bool)
  | number (numeral : Numeral)
  | string (text : String)
  | array (items : List Value)
  | object (members : List (String × Value))

/-! ## §2 Numbers -/

def IsDigits (text : List Char) : Prop :=
  text ≠ [] ∧ ∀ c ∈ text, c.isDigit = true

/-- The digits before a point begin with a zero only if that is all of them. -/
structure IsWhole (text : List Char) : Prop where
  isDigits : IsDigits text
  noLeadingZero : text.head? = some '0' → text = ['0']

inductive IsFraction : Option (List Char) → List Char → Prop where
  | none : IsFraction none []
  | digits {digits : List Char} (hdigits : IsDigits digits) :
      IsFraction (some digits) ('.' :: digits)

/-- The letter in front of a power of ten. -/
def isPowerLetter (c : Char) : Bool :=
  c == 'e' || c == 'E'

inductive IsPower : Option Int → List Char → Prop where
  | none : IsPower none []
  | unsigned {letter : Char} {digits : List Char} (hknown : isPowerLetter letter = true)
      (hdigits : IsDigits digits) : IsPower (some (digitsValue digits)) (letter :: digits)
  | positive {letter : Char} {digits : List Char} (hknown : isPowerLetter letter = true)
      (hdigits : IsDigits digits) : IsPower (some (digitsValue digits)) (letter :: '+' :: digits)
  | negative {letter : Char} {digits : List Char} (hknown : isPowerLetter letter = true)
      (hdigits : IsDigits digits) :
      IsPower (some (-digitsValue digits)) (letter :: '-' :: digits)

/-- **The texts of numbers.** -/
inductive IsNumeral : Numeral → List Char → Prop where
  | positive {whole fraction power : List Char} {fraction? : Option (List Char)}
      {power? : Option Int} (hwhole : IsWhole whole) (hfraction : IsFraction fraction? fraction)
      (hpower : IsPower power? power) :
      IsNumeral ⟨false, whole, fraction?, power?⟩ (whole ++ (fraction ++ power))
  | negative {whole fraction power : List Char} {fraction? : Option (List Char)}
      {power? : Option Int} (hwhole : IsWhole whole) (hfraction : IsFraction fraction? fraction)
      (hpower : IsPower power? power) :
      IsNumeral ⟨true, whole, fraction?, power?⟩ ('-' :: (whole ++ (fraction ++ power)))

/-! ## §3 Strings -/

/-- The character that a letter behind a backslash stands for. -/
def shortEscape? : Char → Option Char
  | '"' => some '"'
  | '\\' => some '\\'
  | '/' => some '/'
  | 'b' => some '\x08'
  | 'f' => some '\x0c'
  | 'n' => some '\n'
  | 'r' => some '\r'
  | 't' => some '\t'
  | _ => none

/-- The character of a pair of surrogates, each given by its hexadecimal digits. -/
def surrogates? (high low : List Char) : Option Char := do
  let h ← hexNumber? high
  let l ← hexNumber? low
  if 0xD800 ≤ h ∧ h < 0xDC00 ∧ 0xDC00 ≤ l ∧ l < 0xE000 then
    some (Char.ofNat (0x10000 + (h - 0xD800) * 0x400 + (l - 0xDC00)))
  else none

/-- **The ways to write a character** in a string. -/
inductive IsCharacter : Char → List Char → Prop where
  | plain {c : Char} (hnoControl : 0x20 ≤ c.toNat) (hnoQuote : c ≠ '"') (hnoBackslash : c ≠ '\\') :
      IsCharacter c [c]
  | short {letter c : Char} (hknown : shortEscape? letter = some c) : IsCharacter c ['\\', letter]
  | codePoint {h i j k c : Char} (hknown : codePoint? [h, i, j, k] = some c) :
      IsCharacter c ['\\', 'u', h, i, j, k]
  | surrogates {h i j k h' i' j' k' c : Char}
      (hknown : surrogates? [h, i, j, k] [h', i', j', k'] = some c) :
      IsCharacter c ['\\', 'u', h, i, j, k, '\\', 'u', h', i', j', k']

/-- What stands between the quotation marks of a string. -/
inductive IsContent : List Char → List Char → Prop where
  | nil : IsContent [] []
  | cons {c : Char} {chars first rest : List Char} (hcharacter : IsCharacter c first)
      (hmore : IsContent chars rest) : IsContent (c :: chars) (first ++ rest)

/-! ## §4 Documents -/

def isSpace (c : Char) : Bool :=
  c == ' ' || c == '\n' || c == '\r' || c == '\t'

def IsSpaces (text : List Char) : Prop :=
  ∀ c ∈ text, isSpace c = true

/-- A name in an object, with the colon behind it. -/
inductive IsName : String → List Char → Prop where
  | mk {before after chars content : List Char} (hspaces : IsSpaces before)
      (hcontent : IsContent chars content) (hspaces' : IsSpaces after) :
      IsName (String.ofList chars) (before ++ '"' :: (content ++ '"' :: (after ++ [':'])))

/-- What the grammar has a rule for. -/
inductive Phrase where
  /-- A value, without spaces around it. -/
  | bare (value : Value)
  /-- A value with any spaces around it. -/
  | element (value : Value)
  /-- The values of an array that is not empty. -/
  | items (values : List Value)
  /-- The names and values of an object that is not empty. -/
  | members (members : List (String × Value))

/-- **The texts of phrases.** -/
inductive Writes : Phrase → List Char → Prop where
  | nullWord : Writes (.bare .null) ['n', 'u', 'l', 'l']
  | trueWord : Writes (.bare (.boolean true)) ['t', 'r', 'u', 'e']
  | falseWord : Writes (.bare (.boolean false)) ['f', 'a', 'l', 's', 'e']
  | number {numeral : Numeral} {text : List Char} (hnumeral : IsNumeral numeral text) :
      Writes (.bare (.number numeral)) text
  | string {chars content : List Char} (hcontent : IsContent chars content) :
      Writes (.bare (.string (String.ofList chars))) ('"' :: (content ++ ['"']))
  | emptyArray {between : List Char} (hspaces : IsSpaces between) :
      Writes (.bare (.array [])) ('[' :: (between ++ [']']))
  | array {values : List Value} {text : List Char} (hitems : Writes (.items values) text) :
      Writes (.bare (.array values)) ('[' :: (text ++ [']']))
  | emptyObject {between : List Char} (hspaces : IsSpaces between) :
      Writes (.bare (.object [])) ('\x7b' :: (between ++ ['\x7d']))
  | object {members : List (String × Value)} {text : List Char}
      (hwritten : Writes (.members members) text) :
      Writes (.bare (.object members)) ('\x7b' :: (text ++ ['\x7d']))
  | element {value : Value} {before text after : List Char} (hspaces : IsSpaces before)
      (hbare : Writes (.bare value) text) (hspaces' : IsSpaces after) :
      Writes (.element value) (before ++ (text ++ after))
  | lastItem {value : Value} {text : List Char} (honly : Writes (.element value) text) :
      Writes (.items [value]) text
  | item {value : Value} {values : List Value} {first rest : List Char}
      (hhead : Writes (.element value) first) (hmore : Writes (.items values) rest) :
      Writes (.items (value :: values)) (first ++ ',' :: rest)
  | lastMember {name : String} {value : Value} {key text : List Char} (hname : IsName name key)
      (honly : Writes (.element value) text) : Writes (.members [(name, value)]) (key ++ text)
  | member {name : String} {value : Value} {members : List (String × Value)}
      {key first rest : List Char} (hname : IsName name key)
      (hhead : Writes (.element value) first) (hmore : Writes (.members members) rest) :
      Writes (.members ((name, value) :: members)) (key ++ (first ++ ',' :: rest))

/-- **A well-formed document** and the value that it stands for. -/
def IsDocument (value : Value) (text : List Char) : Prop :=
  Writes (.element value) text

end MiniPascal.Json
