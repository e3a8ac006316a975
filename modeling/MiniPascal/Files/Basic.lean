/-!
# Files

What the program asks of a file system: the bytes of the file at a path, or the
reason why there are none.  Text is read strictly, so a file that is not UTF-8 is
no text.
-/

namespace MiniPascal

/-! ## §1 Faults -/

inductive FileFault where
  | notFound
  /-- The path goes through something that is not a directory. -/
  | notADirectory
  | isADirectory
  | notText
  /-- Another fault, in the words of the system. -/
  | other (description : String)
  deriving DecidableEq

/-- The words of the system for a fault. -/
def FileFault.message : FileFault → String
  | notFound => "No such file or directory (os error 2)"
  | notADirectory => "Not a directory (os error 20)"
  | isADirectory => "Is a directory (os error 21)"
  | notText => "stream did not contain valid UTF-8"
  | other description => description

/-! ## §2 Reading -/

/-- A file system, as the answer to each path. -/
abbrev Files := String → Except FileFault ByteArray

def decodeText (bytes : ByteArray) : Except FileFault String :=
  match String.fromUTF8? bytes with
  | some text => .ok text
  | none => .error .notText

/-- The encoding of a text decodes to the text. -/
theorem decodeText_toUTF8 (text : String) : decodeText text.toUTF8 = .ok text := by
  have hvalid : text.toUTF8.IsValidUTF8 := text.isValidUTF8
  have hdecoded : String.fromUTF8? text.toUTF8 = some text := by
    unfold String.fromUTF8?
    rw [dif_pos hvalid]
    rfl
  unfold decodeText
  rw [hdecoded]

namespace Files

/-- Whether something is at a path, a directory or a file of any content. -/
def hold (files : Files) (path : String) : Bool :=
  match files path with
  | .error .notFound => false
  | .error .notADirectory => false
  | _ => true

/-- The text of the file at a path. -/
def readText (files : Files) (path : String) : Except FileFault String :=
  files path >>= decodeText

end Files

end MiniPascal
