import MiniPascal.Toml.Value

/-!
# Building TOML Tables

A document adds entries to its tables one by one, each at the end of a path of
keys.  `Table.alter` walks down such a path and changes the table at its end; it
makes the tables that are missing on the way and refuses to go through what is
complete.
-/

namespace MiniPascal.Toml

/-! ## §1 Tables under construction -/

/-- A table that entries may be added to. -/
structure Table where
  origin : TableOrigin
  entries : Entries

namespace Table

/-- The document before its first line. -/
def empty : Table := ⟨.header, []⟩

/-- The entries with the value of a key changed, or with a new key at the end. -/
def put (entries : Entries) (key : String) (value : Value) : Entries :=
  match entries with
  | [] => [(key, value)]
  | (k, v) :: more => if k = key then (k, value) :: more else (k, v) :: put more key value

def set (table : Table) (key : String) (value : Value) : Table :=
  { table with entries := put table.entries key value }

/-! ## §2 Walking down a path -/

/-- **Changes the table at the end of a path.**  Missing tables are made with the
origin `way`, which tells a path of dotted keys from the path of a header.  A
header goes through all tables but those in braces; a dotted key does not go
through tables that have a header.  Through an array of tables the path goes to
its last element. -/
def alter (way : TableOrigin) (change : Table → Except Fault Table) :
    List String → Table → Except Fault Table
  | [], table => change table
  | key :: path, table =>
    match table.entries.lookup key with
    | none => do
      let child ← alter way change path ⟨way, []⟩
      return table.set key (.table child.origin child.entries)
    | some (.table origin entries) =>
      if origin = .braces ∨ (way = .dotted ∧ origin = .header) then .error (.duplicate key)
      else do
        let child ← alter way change path ⟨origin, entries⟩
        return table.set key (.table child.origin child.entries)
    | some (.tables elements) =>
      match elements.getLast? with
      | none => .error (.notATable key)
      | some last => do
        let child ← alter way change path ⟨.header, last⟩
        return table.set key (.tables (elements.dropLast ++ [child.entries]))
    | some _ => .error (.notATable key)

/-! ## §3 Adding entries -/

/-- Adds a new key.  A key behind dots belongs to a table that dotted keys made, a
key without dots does not. -/
def insertNew (behindDots : Bool) (key : String) (value : Value) (table : Table) :
    Except Fault Table :=
  if (table.origin = .dotted) ≠ behindDots then .error (.duplicate key)
  else if (table.entries.lookup key).isSome then .error (.duplicate key)
  else .ok (table.set key value)

def assign (path : List String) (key : String) (value : Value) (table : Table) :
    Except Fault Table :=
  alter .dotted (insertNew (!path.isEmpty) key value) path table

/-- Gives a table its header.  Only a table that is new or implied can have one. -/
def openTable (path : List String) (key : String) (table : Table) : Except Fault Table :=
  alter .implied (fun parent =>
    match parent.entries.lookup key with
    | none => .ok (parent.set key (.table .header []))
    | some (.table .implied entries) => .ok (parent.set key (.table .header entries))
    | some _ => .error (.duplicate key)) path table

/-- Adds an element to an array of tables. -/
def openElement (path : List String) (key : String) (table : Table) : Except Fault Table :=
  alter .implied (fun parent =>
    match parent.entries.lookup key with
    | none => .ok (parent.set key (.tables [[]]))
    | some (.tables elements) => .ok (parent.set key (.tables (elements ++ [[]])))
    | some _ => .error (.duplicate key)) path table

end Table

end MiniPascal.Toml
