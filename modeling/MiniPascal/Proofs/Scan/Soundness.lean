import MiniPascal.Proofs.Scan.Refinement

/-!
# What Every State of a Scanner Shows

However a scanner was used, what it shows of its place can be read off the text alone:
`Sound` says how, and `sound_run` that it holds of every state.  The state is one that a
scanner by offsets reaches as well, on a text that its counters are large enough for.
-/

namespace MiniPascal

namespace Scanner

variable {scanner : Scanner} {source marked token : List Char}

/-- What a scanner shows, when `marked` is the text before its token, `passed` the text
before its place and `rest` the text from there on. -/
structure Sound (source marked passed rest : List Char) (scanner : Scanner) : Prop where
  /-- The token begins at a character boundary, and so does the rest of the text. -/
  tokenStart_boundary : takeBytes? scanner.tokenSpan.start source = some marked
  position_boundary : takeBytes? scanner.position source = some passed
  behind : dropBytes? scanner.position source = some rest
  /-- The offsets come in order. -/
  tokenStart_le : scanner.tokenSpan.start ≤ scanner.position
  position_le : scanner.position ≤ byteLength source
  /-- The characters that can be seen are the first two of the rest. -/
  current? : scanner.cursor.current? = rest.head?
  current?_eq_none_iff : scanner.cursor.current? = none ↔ scanner.position = byteLength source
  peek? : scanner.cursor.peek? = rest[1]?
  /-- Lines count line feeds, and columns the characters behind the last one. -/
  line : scanner.cursor.location.line = 1 + passed.count '\n'
  column : scanner.cursor.location.column = 1 + (lastLine passed).length
  tokenLine : scanner.tokenSpan.line = 1 + marked.count '\n'
  tokenColumn : scanner.tokenSpan.column = 1 + (lastLine marked).length
  /-- No operation goes back from here. -/
  forward : ∀ operation, scanner.position ≤ (scanner.after operation).position

/-- **What a state shows.**  Everything follows from where it stands. -/
theorem Stands.sound (hstands : Stands source marked token scanner) :
    Sound source marked (marked ++ token) scanner.cursor.rest scanner := by
  have hfirst := hstands.tokenSpan_start
  have hhere := hstands.position_eq
  have hsize : byteLength source = scanner.position + byteLength scanner.cursor.rest := by
    rw [hhere, ← byteLength_append, ← hstands.whole]
  constructor
  case tokenStart_boundary =>
    rw [hfirst, hstands.whole, List.append_assoc]
    exact takeBytes?_append ..
  case position_boundary =>
    rw [hhere, hstands.whole]
    exact takeBytes?_append ..
  case behind =>
    rw [hhere]
    conv_lhs => rw [hstands.whole]
    exact dropBytes?_append ..
  case tokenStart_le =>
    rw [hfirst, hhere, byteLength_append]
    exact Nat.le_add_right ..
  case position_le => omega
  case current? => rfl
  case current?_eq_none_iff =>
    -- a rest with a character in it takes at least a byte
    show scanner.cursor.rest.head? = none ↔ _
    rw [List.head?_eq_none_iff]
    constructor
    · intro hended
      rw [hsize, hended]
      rfl
    · intro hfull
      by_contra hinside
      have := byteLength_pos hinside
      omega
  case peek? =>
    show scanner.cursor.rest.tail.head? = _
    rw [List.head?_eq_getElem?, List.getElem?_tail]
  case line => rw [hstands.location, line_advance_start]
  case column => rw [hstands.location, column_advance_start]
  case tokenLine =>
    show scanner.tokenStart.line = _
    rw [hstands.tokenStart, line_advance_start]
  case tokenColumn =>
    show scanner.tokenStart.column = _
    rw [hstands.tokenStart, column_advance_start]
  -- this holds of every scanner, wherever it stands
  case forward => exact position_le_after scanner

end Scanner

/-- A scanner by offsets shows what a scanner shows. -/
structure CheckedScanner.Shows (checked : CheckedScanner) (scanner : Scanner) : Prop where
  position : checked.cursor.position = scanner.position
  current? : checked.cursor.current? = scanner.cursor.current?
  peek? : checked.cursor.peek? = some scanner.cursor.peek?
  line : checked.cursor.line.toNat = scanner.cursor.location.line
  column : checked.cursor.column.toNat = scanner.cursor.location.column
  tokenSpan : checked.tokenSpan = scanner.tokenSpan

theorem CheckedScanner.Tracks.shows {checked : CheckedScanner} {scanner : Scanner}
    (htracks : checked.Tracks scanner) : checked.Shows scanner := by
  refine ⟨htracks.cursor.position, htracks.cursor.current?, htracks.cursor.peek,
    htracks.cursor.line, htracks.cursor.column, ?_⟩
  unfold tokenSpan
  rw [htracks.tokenStart, htracks.tokenLine, htracks.tokenColumn, htracks.cursor.position]
  rfl

namespace Scanner

/-- **Every state is sound, and no operation on the way fails.**  Whatever was called, what
the scanner shows is what its text has there.  A scanner that has only offsets and
counters of 32 bits makes the same calls without a cut off the character boundaries and
without running out of numbers, and shows the same. -/
theorem sound_run (source : List Char) (operations : List Operation)
    (hshort : source.length < UInt32.size - 1) :
    (∃ marked passed rest, Sound source marked passed rest ((start source).run operations)) ∧
      ∃ checked, (CheckedScanner.start source).run? operations = some checked ∧
        checked.Shows ((start source).run operations) := by
  obtain ⟨marked, token, hstands⟩ := exists_stands_run source operations
  -- the last counter value is left for the place behind the text
  have hroom : source.length + 1 < UInt32.size := by
    omega
  obtain ⟨checked, hfound, htracks⟩ := CheckedScanner.exists_tracks_run hroom operations
  exact ⟨⟨marked, marked ++ token, _, hstands.sound⟩, checked, hfound, htracks.shows⟩

/-- A comment that nothing opened, no number and no colon: the four calls pass the text up
to the assignment sign. -/
theorem sound_run_outOfPlace :
    ((start "é\n\x7d²:=".toList).run [.skipComment, .number, .colon, .word]).position = 6 ∧
    (∃ marked passed rest, Sound "é\n\x7d²:=".toList marked passed rest
      ((start "é\n\x7d²:=".toList).run [.skipComment, .number, .colon, .word])) ∧
    ∃ checked, (CheckedScanner.start "é\n\x7d²:=".toList).run?
        [.skipComment, .number, .colon, .word] = some checked ∧
      checked.Shows ((start "é\n\x7d²:=".toList).run [.skipComment, .number, .colon, .word]) :=
  ⟨by decide, sound_run _ _ (by decide)⟩

end Scanner

end MiniPascal
