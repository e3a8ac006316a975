import MiniPascal.Numeral.Binary64

/-!
# TOML Values and Tables

The values that a TOML document can hold, and the faults of texts that are no
documents.

A table remembers how it came about, because that decides what may still be added
to it: a header may come back to a table that deeper headers only implied, a
dotted key may come back to a table that dotted keys made, and a table in braces
is complete.
-/

namespace MiniPascal.Toml

/-! ## §1 Values -/

inductive TableOrigin where
  /-- By a header of its own, or as the document itself. -/
  | header
  /-- By a header that goes through it. -/
  | implied
  /-- By a dotted key that goes through it. -/
  | dotted
  | braces
  deriving DecidableEq

inductive Value where
  | string (text : String)
  | integer (value : Int)
  | real (value : Binary64)
  | boolean (value : Bool)
  /-- A date, a time or both, as it is written. -/
  | dateTime (text : String)
  | array (items : List Value)
  | table (origin : TableOrigin) (entries : List (String × Value))
  /-- An array whose elements are tables with headers of their own. -/
  | tables (elements : List (List (String × Value)))

/-- The entries of a table, in the order in which their keys came up. -/
abbrev Entries := List (String × Value)

/-! ## §2 Faults -/

/-- Why a text is not a TOML document. -/
inductive Fault where
  /-- The text breaks the grammar at this point. -/
  | unexpected (rest : List Char)
  /-- A number has no value in its type. -/
  | outOfRange (digits : List Char)
  /-- A key is given twice, or a table is defined twice. -/
  | duplicate (key : String)
  /-- A path leads through a value that is not a table. -/
  | notATable (key : String)
  /-- Values are nested, or a key is dotted, more deeply than is allowed. -/
  | tooDeep

def Fault.message : Fault → String
  | unexpected [] => "unexpected end of text"
  | unexpected (c :: _) => "unexpected character '" ++ String.singleton c ++ "'"
  | outOfRange digits => "number out of range: " ++ String.ofList digits
  | duplicate key => "duplicate key: " ++ key
  | notATable key => "not a table: " ++ key
  | tooDeep => "nested too deeply"

/-- The depth that brackets, braces and dotted keys stay below. -/
def depthLimit : Nat := 80

end MiniPascal.Toml
