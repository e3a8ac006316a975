import MiniPascal.Toml.Number
import MiniPascal.Toml.Table

/-!
# TOML Documents

A document is a sequence of statements: keys with values, and headers that say to
which table the keys after them belong.  `statements` reads the text, and
`Document.build` carries the statements out.
-/

namespace MiniPascal.Toml

/-- A function that reads something at the front of a text and gives it with the
text after it. -/
abbrev Reader (α : Type) := List Char → Except Fault (α × List Char)

/-! ## §1 Keys -/

/-- Whether a character may stand in a key without quotation marks. -/
def isBareKeyChar (c : Char) : Bool := c.isAlphanum || c = '_' || c = '-'

/-- One key, bare or quoted. -/
def simpleKey (text : List Char) : Except Fault (String × List Char) :=
  match text with
  | '"' :: rest => (quotedLine rest).map fun (key, after) => (String.ofList key, after)
  | '\'' :: rest => (literalLine rest).map fun (key, after) => (String.ofList key, after)
  | _ =>
    let key := text.takeWhile isBareKeyChar
    if key.isEmpty then .error (.unexpected text)
    else .ok (String.ofList key, text.dropWhile isBareKeyChar)

/-- The keys of a dotted key, with blanks around each. -/
def keyParts (text : List Char) : Except Fault (List String × List Char) := do
  let (key, rest) ← simpleKey (dropBlanks text)
  match dropBlanks rest with
  | '.' :: after =>
    if _hshorter : after.length < text.length then
      let (keys, rest) ← keyParts after
      return (key :: keys, rest)
    else .error (.unexpected after)
  | rest => return ([key], rest)
termination_by text.length

/-- A dotted key, as the path to its last part and that part. -/
def dottedKey (text : List Char) : Except Fault ((List String × String) × List Char) := do
  let (keys, rest) ← keyParts text
  if depthLimit ≤ keys.length then .error .tooDeep
  else match keys.getLast? with
    | some key => return ((keys.dropLast, key), rest)
    | none => .error (.unexpected text)

structure Assignment where
  path : List String
  key : String
  value : Value

/-- A key with an equals sign and a value, which `readValue` reads. -/
def assignment (readValue : Reader Value) (text : List Char) :
    Except Fault (Assignment × List Char) := do
  let ((path, key), rest) ← dottedKey text
  match rest with
  | '=' :: after =>
    let (value, rest) ← readValue (dropBlanks after)
    return (⟨path, key, value⟩, rest)
  | _ => .error (.unexpected rest)

/-! ## §2 Values -/

/-- The elements of an array up to its closing bracket, behind the opening bracket
or a comma.  A comma may stand behind the last element. -/
def arrayItems (readValue : Reader Value) (text : List Char) :
    Except Fault (List Value × List Char) := do
  match ← dropLayout false text with
  | ']' :: rest => return ([], rest)
  | item =>
    let (value, rest) ← readValue item
    match ← dropLayout false rest with
    | ']' :: rest => return ([value], rest)
    | ',' :: rest =>
      if _hshorter : rest.length < text.length then
        let (values, rest) ← arrayItems readValue rest
        return (value :: values, rest)
      else .error (.unexpected rest)
    | rest => .error (.unexpected rest)
termination_by text.length

/-- The entries of a table in braces up to its closing brace, behind the opening
brace or a comma.  Such a table stands on one line and has no comma behind its
last entry. -/
def braceEntries (readValue : Reader Value) (text : List Char) :
    Except Fault (List Assignment × List Char) := do
  let (entry, rest) ← assignment readValue text
  match dropBlanks rest with
  | '\x7d' :: rest => return ([entry], rest)
  | ',' :: rest =>
    if _hshorter : rest.length < text.length then
      let (entries, rest) ← braceEntries readValue rest
      return (entry :: entries, rest)
    else .error (.unexpected rest)
  | rest => .error (.unexpected rest)
termination_by text.length

def braceTable (entries : List Assignment) : Except Fault Value := do
  let table ← entries.foldlM (fun table entry => table.assign entry.path entry.key entry.value)
    Table.empty
  return .table .braces table.entries

/-- **A value.**  The number bounds how deeply brackets and braces may still be
nested. -/
def value : Nat → List Char → Except Fault (Value × List Char)
  | depth, '[' :: text =>
    match depth with
    | 0 => .error .tooDeep
    | depth + 1 => do
      let (items, rest) ← arrayItems (value depth) text
      return (.array items, rest)
  | depth, '\x7b' :: text =>
    match depth with
    | 0 => .error .tooDeep
    | depth + 1 => do
      match dropBlanks text with
      | '\x7d' :: rest => return (.table .braces [], rest)
      | _ =>
        let (entries, rest) ← braceEntries (value depth) text
        return (← braceTable entries, rest)
  | _, '"' :: text => do
    let (s, rest) ← quoted ('"' :: text)
    return (.string (String.ofList s), rest)
  | _, '\'' :: text => do
    let (s, rest) ← quoted ('\'' :: text)
    return (.string (String.ofList s), rest)
  | _, 't' :: 'r' :: 'u' :: 'e' :: rest => .ok (.boolean true, rest)
  | _, 'f' :: 'a' :: 'l' :: 's' :: 'e' :: rest => .ok (.boolean false, rest)
  | _, text => number text

/-! ## §3 Statements -/

inductive Statement where
  | assign (assignment : Assignment)
  /-- A header in single brackets, as the path to its last part and that part. -/
  | table (path : List String) (key : String)
  /-- A header in double brackets. -/
  | element (path : List String) (key : String)

/-- The statement at the front of a line, if the line has one, and the lines after
it. -/
def statement? (text : List Char) : Except Fault (Option Statement × List Char) :=
  match text with
  | '[' :: '[' :: header => do
    let ((path, key), rest) ← dottedKey header
    match rest with
    | ']' :: ']' :: rest => return (some (.element path key), ← lineEnd rest)
    | _ => .error (.unexpected rest)
  | '[' :: header => do
    let ((path, key), rest) ← dottedKey header
    match rest with
    | ']' :: rest => return (some (.table path key), ← lineEnd rest)
    | _ => .error (.unexpected rest)
  | c :: _ =>
    if c = '#' ∨ startsLineEnd text then do return (none, ← lineEnd text)
    else do
      let (entry, rest) ← assignment (value (depthLimit - 1)) text
      return (some (.assign entry), ← lineEnd rest)
  | [] => .ok (none, [])

def statements (text : List Char) : Except Fault (List Statement) := do
  let line := dropBlanks text
  if line.isEmpty then return []
  let (first, rest) ← statement? line
  if _hshorter : rest.length < text.length then
    return first.toList ++ (← statements rest)
  else .error (.unexpected rest)
termination_by text.length

/-! ## §4 Documents -/

/-- A document under construction: its entries so far, and the path of the table
that keys are added to. -/
structure Document where
  root : Table
  here : List String

namespace Document

def step (document : Document) : Statement → Except Fault Document
  | .assign entry => do
    let root ← document.root.alter .implied (Table.assign entry.path entry.key entry.value)
      document.here
    return { document with root }
  | .table path key => do
    return ⟨← document.root.openTable path key, path ++ [key]⟩
  | .element path key => do
    return ⟨← document.root.openElement path key, path ++ [key]⟩

def build (statements : List Statement) : Except Fault Entries := do
  let document ← statements.foldlM step ⟨Table.empty, []⟩
  return document.root.entries

end Document

/-- **The entries of a document.**  A byte order mark at the front is no part of
it. -/
def parse (text : List Char) : Except Fault Entries := do
  let body := match text with
    | '\ufeff' :: body => body
    | body => body
  Document.build (← statements body)

end MiniPascal.Toml
