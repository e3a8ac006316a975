import MiniPascal.Json.Scalar

/-!
# JSON Documents

The documents written here are lists of records whose fields are scalars.  There
are two forms of them: the compact form has no blanks at all, the indented form
puts every field on a line of its own, two columns further in for each level.
-/

namespace MiniPascal.Json

/-! ## §1 Records and documents -/

/-- Named scalars in a fixed order. -/
abbrev Record := List (String × Scalar)

abbrev Document := List Record

/-! ## §2 The compact form -/

def compactField (field : String × Scalar) : String :=
  quote field.1 ++ ":" ++ field.2.text

def compactRecord (record : Record) : String :=
  "\x7b" ++ ",".intercalate (record.map compactField) ++ "\x7d"

def compact (document : Document) : String :=
  "[" ++ ",".intercalate (document.map compactRecord) ++ "]"

/-! ## §3 The indented form -/

/-- A field on its line, without the end of the line. -/
def indentedField (field : String × Scalar) : String :=
  "    " ++ quote field.1 ++ ": " ++ field.2.text

def indentedRecord (record : Record) : String :=
  match record with
  | [] => "  \x7b\x7d"
  | _ :: _ => "  \x7b\n" ++ ",\n".intercalate (record.map indentedField) ++ "\n  \x7d"

def indented (document : Document) : String :=
  match document with
  | [] => "[]"
  | _ :: _ => "[\n" ++ ",\n".intercalate (document.map indentedRecord) ++ "\n]"

end MiniPascal.Json
