import MiniPascal.TokenDump
import MiniPascal.Toml.Document

/-!
# Settings

The settings of the program are a TOML document with two keys: `verbose`, and the
table `output` with `format` and `show_positions`.  All of them may be missing, and
keys that are not known do not matter.

A table with known keys may also be given as an array of their values in order, and
a choice between names as a table with the chosen name as its only key.
-/

namespace MiniPascal

structure Settings where
  verbose : Bool
  format : DumpFormat
  positions : Bool
  deriving DecidableEq

namespace Settings

open Toml (Value Entries)

def default : Settings := ⟨false, .text, false⟩

/-! ## §1 Single values -/

def formatNamed? : String → Option DumpFormat
  | "text" => some .text
  | "json" => some .json
  | _ => none

/-- Whether a value is an array or a table without content. -/
def isEmptyValue : Value → Bool
  | .array items => items.isEmpty
  | .table _ entries => entries.isEmpty
  | .tables elements => elements.isEmpty
  | _ => false

/-- A format: its name, or a table with that name as the only key and nothing in
it. -/
def format? : Value → Option DumpFormat
  | .string name => formatNamed? name
  | .table _ [(name, content)] => if isEmptyValue content then formatNamed? name else none
  | _ => none

def flag? : Value → Option Bool
  | .boolean value => some value
  | _ => none

/-- What is set under a key, or a given value if nothing is. -/
def get? {α : Type} (read : Value → Option α) (missing : α) (entries : Entries) (key : String) :
    Option α :=
  match entries.lookup key with
  | none => some missing
  | some value => read value

/-- What is set at a place of an array, or a given value if the array ends before
it. -/
def item? {α : Type} (read : Value → Option α) (missing : α) (items : List Value) (index : Nat) :
    Option α :=
  match items[index]? with
  | none => some missing
  | some value => read value

/-! ## §2 Documents -/

/-- The format and the choice of places, in order, from an array. -/
def outputOfArray? (items : List Value) : Option (DumpFormat × Bool) := do
  return (← item? format? .text items 0, ← item? flag? false items 1)

/-- The format and the choice of places.  A date counts as a table in which nothing
is set. -/
def output? : Value → Option (DumpFormat × Bool)
  | .table _ entries => do
    return (← get? format? .text entries "format", ← get? flag? false entries "show_positions")
  | .array items => outputOfArray? items
  | .tables elements => outputOfArray? (elements.map fun entries => .table .header entries)
  | .dateTime _ => some (.text, false)
  | _ => none

/-- **The settings of a document**, if all that is set in it has the right form. -/
def ofEntries? (entries : Entries) : Option Settings := do
  let verbose ← get? flag? false entries "verbose"
  let (format, positions) ← get? output? (.text, false) entries "output"
  return ⟨verbose, format, positions⟩

end Settings

end MiniPascal
