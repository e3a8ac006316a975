import MiniPascal.Files.Basic
import MiniPascal.Text.Split

/-!
# File Trees

A file system held in memory: files at paths of names, and the directories that
they need.  A textual path is walked name by name, and every step but the last one
must lead to a directory.
-/

namespace MiniPascal

structure FileTree where
  /-- The files with their paths from the root. -/
  files : List (List String × ByteArray)
  /-- Directories that exist even if no file is in them. -/
  directories : List (List String)
  /-- The directory that relative paths start from. -/
  here : List String

namespace FileTree

/-! ## §1 What is at a place -/

/-- Whether a directory is at a place: a given one, or one that another place goes
through. -/
def holdsDirectory (tree : FileTree) (place : List String) : Bool :=
  place.isEmpty
    || tree.directories.any (fun directory => place.isPrefixOf directory)
    || tree.files.any fun (file, _) => place.isPrefixOf file && place != file

/-- The bytes of the file at a place. -/
def bytes? (tree : FileTree) (place : List String) : Option ByteArray :=
  tree.files.lookup place

/-! ## §2 Walking -/

/-- The place that is reached from another by a sequence of names.  An empty name
and a single dot stay, two dots go up. -/
def walk (tree : FileTree) : List String → List String → Except FileFault (List String)
  | place, [] => .ok place
  | place, name :: names =>
    if !tree.holdsDirectory place then .error .notADirectory
    else if name = "" ∨ name = "." then walk tree place names
    else if name = ".." then walk tree place.dropLast names
    else
      let next := place ++ [name]
      if (tree.bytes? next).isSome || tree.holdsDirectory next then walk tree next names
      else .error .notFound

def names (path : String) : List String :=
  (pieces '/' path.toList).map String.ofList

/-- The place of a path: from the root if the path begins with a slash. -/
def resolve (tree : FileTree) (path : String) : Except FileFault (List String) :=
  if path = "" then .error .notFound
  else if path.toList.head? = some '/' then tree.walk [] (names path)
  else tree.walk tree.here (names path)

/-- **The file system of a tree.** -/
def read (tree : FileTree) : Files := fun path => do
  let place ← tree.resolve path
  match tree.bytes? place with
  | some bytes => return bytes
  | none => .error .isADirectory

end FileTree

end MiniPascal
