/-!
# Blank Characters

Blanks separate the tokens of a program and have no other meaning there.  They
are the characters with the Unicode property `White_Space`, which is wider than
the four ASCII blanks of `Char.isWhitespace`: it has the no-break spaces, the
typographic spaces and the line and paragraph separators as well.
-/

namespace MiniPascal

/-! ## §1 The property as a table -/

/-- The code points with the property `White_Space`, as closed ranges in
increasing order. -/
def blankRanges : List (Nat × Nat) :=
  [(0x09, 0x0D), (0x20, 0x20), (0x85, 0x85), (0xA0, 0xA0), (0x1680, 0x1680),
   (0x2000, 0x200A), (0x2028, 0x2029), (0x202F, 0x202F), (0x205F, 0x205F),
   (0x3000, 0x3000)]

/-- A character is blank if its code point lies in one of the ranges. -/
def isBlank (c : Char) : Bool :=
  blankRanges.any fun (first, last) => first ≤ c.toNat && c.toNat ≤ last

/-! ## §2 The table against the ASCII blanks -/

/-- Every blank of the core library is blank here. -/
theorem isBlank_of_isWhitespace {c : Char} (h : c.isWhitespace) : isBlank c := by
  simp only [Char.isWhitespace, Bool.or_eq_true, decide_eq_true_eq] at h
  rcases h with ((rfl | rfl) | rfl) | rfl <;> decide

/-- The property holds of twenty-five code points in all. -/
example :
    blankRanges.foldr (fun (first, last) n => (last + 1 - first) + n) 0 = 25 := by
  decide

end MiniPascal
