import MiniPascal.Token.Basic

/-!
# Reserved Words

The words that are not names.  They are recognised in any case of the ASCII
letters, and a reserved token carries its word in upper case.
-/

namespace MiniPascal

/-! ## §1 The table -/

/-- A text with its ASCII letters in upper case. -/
def upperCase (text : String) : String :=
  String.ofList (text.toList.map Char.toUpper)

/-- Upper case makes an upper case letter of a lower case one, and leaves all else alone. -/
theorem toUpper_cases (c : Char) :
    c.toUpper = c ∨ c.isLower = true ∧ c.toUpper.isUpper = true := by
  by_cases hlower : 'a'.val ≤ c.val ∧ c.val ≤ 'z'.val
  · have hlow : 97 ≤ c.val.toNat := UInt32.le_iff_toNat_le.mp hlower.1
    have hhigh : c.val.toNat ≤ 122 := UInt32.le_iff_toNat_le.mp hlower.2
    -- the way from `'a'` to `'A'` leads down, which is an addition that wraps around
    have hdown : ('A'.val - 'a'.val).toNat = 2 ^ 32 - 32 := rfl
    have hmoved : c.toUpper.val.toNat = c.val.toNat - 32 := by
      unfold Char.toUpper
      rw [dif_pos hlower, UInt32.toNat_add, hdown]
      omega
    refine .inr ⟨?_, decide_eq_true ⟨?_, ?_⟩⟩
    · exact Bool.and_eq_true_iff.mpr ⟨decide_eq_true hlower.1, decide_eq_true hlower.2⟩
    · apply UInt32.le_iff_toNat_le.mpr
      rw [hmoved]
      exact Nat.le_sub_of_add_le hlow
    · apply UInt32.le_iff_toNat_le.mpr
      rw [hmoved]
      exact Nat.sub_le_of_le_add hhigh
  · exact .inl (dif_neg hlower)

/-- The kinds that are written as a reserved word, in the order of the table. -/
def reservedKinds : List TokenKind :=
  [.programWord, .varWord, .integerDivision, .integerType, .realType, .beginWord,
   .endWord, .procedureWord]

def reservedWords : List (String × Token) :=
  reservedKinds.filterMap fun kind =>
    kind.reservedWord?.map fun word => (word, Token.spelled kind word)

theorem mem_reservedKinds_iff (kind : TokenKind) :
    kind ∈ reservedKinds ↔ kind.isReserved = true := by
  cases kind <;> decide

/-! ## §2 Recognising a word -/

namespace Token

/-- The token of a reserved word, written in any case. -/
def reserved? (word : String) : Option Token :=
  reservedWords.lookup (upperCase word)

/-- The token of a word: a reserved word in any case, or else a name as it is
written. -/
def ofWord (word : String) : Token :=
  (reserved? word).getD (identifier word)

end Token

end MiniPascal
