/-!
# Text Measured in Bytes

Positions in a program are counted in the bytes of its UTF-8 encoding, while the
program itself is a list of characters.  This module measures such a list in
bytes and cuts it at byte offsets.  An offset inside the encoding of a character
is not a boundary, and no cut is made there.

The main statements say that a cut at the length of an initial part gives that
part back (`takeBytes?_append`, `dropBytes?_append`).
-/

namespace MiniPascal

/-! ## §1 Byte length -/

/-- The number of bytes that the UTF-8 encoding of a text takes. -/
def byteLength (text : List Char) : Nat :=
  text.foldr (fun c n => c.utf8Size + n) 0

@[simp]
theorem byteLength_nil : byteLength [] = 0 := rfl

@[simp]
theorem byteLength_cons (c : Char) (text : List Char) :
    byteLength (c :: text) = c.utf8Size + byteLength text := rfl

@[simp]
theorem byteLength_append (left right : List Char) :
    byteLength (left ++ right) = byteLength left + byteLength right := by
  induction left with
  | nil => simp
  | cons c left ih => simp [ih, Nat.add_assoc]

/-- The bytes of a string are those of its characters. -/
theorem utf8ByteSize_ofList (text : List Char) :
    (String.ofList text).utf8ByteSize = byteLength text := by
  induction text with
  | nil => simp [String.ofList_nil]
  | cons c text ih =>
      have hapart : String.ofList (c :: text) = String.singleton c ++ String.ofList text := by
        rw [String.singleton_eq_ofList, ← String.ofList_append]
        rfl
      rw [hapart, String.utf8ByteSize_append, String.utf8ByteSize_singleton, ih, byteLength_cons]

/-- The characters of a string have its bytes. -/
theorem byteLength_toList (text : String) : byteLength text.toList = text.utf8ByteSize := by
  rw [← utf8ByteSize_ofList, String.ofList_toList]

/-! ## §2 Cutting at a byte offset -/

/-- The text before byte `n`, if `n` is a character boundary. -/
def takeBytes? : Nat → List Char → Option (List Char)
  | 0, _ => some []
  | _ + 1, [] => none
  | n + 1, c :: text =>
    if c.utf8Size ≤ n + 1 then (takeBytes? (n + 1 - c.utf8Size) text).map (c :: ·) else none

/-- The text from byte `n` on, if `n` is a character boundary. -/
def dropBytes? : Nat → List Char → Option (List Char)
  | 0, text => some text
  | _ + 1, [] => none
  | n + 1, c :: text =>
    if c.utf8Size ≤ n + 1 then dropBytes? (n + 1 - c.utf8Size) text else none

/-- The text from byte `start` up to byte `stop`, if both are character
boundaries and they come in this order. -/
def sliceBytes? (start stop : Nat) (text : List Char) : Option (List Char) :=
  if start ≤ stop then (dropBytes? start text).bind (takeBytes? (stop - start)) else none

/-- **Taking undoes appending.**  The bytes of an initial part cut off that part. -/
theorem takeBytes?_append (left right : List Char) :
    takeBytes? (byteLength left) (left ++ right) = some left := by
  induction left with
  | nil => simp [takeBytes?]
  | cons c left ih =>
    -- a character has at least one byte, so the offset is a successor
    obtain ⟨k, hk⟩ : ∃ k, c.utf8Size + byteLength left = k + 1 :=
      ⟨c.utf8Size + byteLength left - 1, by have := c.utf8Size_pos; omega⟩
    have hle : c.utf8Size ≤ k + 1 := by omega
    have hsub : k + 1 - c.utf8Size = byteLength left := by omega
    simp [hk, takeBytes?, hle, hsub, ih]

/-- **Dropping undoes prepending.**  The bytes of an initial part leave what
follows it. -/
theorem dropBytes?_append (left right : List Char) :
    dropBytes? (byteLength left) (left ++ right) = some right := by
  induction left with
  | nil => simp [dropBytes?]
  | cons c left ih =>
    obtain ⟨k, hk⟩ : ∃ k, c.utf8Size + byteLength left = k + 1 :=
      ⟨c.utf8Size + byteLength left - 1, by have := c.utf8Size_pos; omega⟩
    have hle : c.utf8Size ≤ k + 1 := by omega
    have hsub : k + 1 - c.utf8Size = byteLength left := by omega
    simp [hk, dropBytes?, hle, hsub, ih]

end MiniPascal
