import MiniPascal.Proofs.Grammar.Reading
import MiniPascal.Proofs.Text.Places

/-!
# Tokens Tile Their Source

The spans of the tokens of a program, and the gaps between them, cover the program
from its first byte to its last, or to the error that ends the reading.  Cut out of
the program and scanned alone, a token gives that token and a gap gives nothing.

Everything is said by `Tiling`; `tiling_readProgram` proves it of every program.  The
proof goes through the decomposition of the program: §2 finds the stretch of text
behind each span and each gap, by induction on what is read.
-/

namespace MiniPascal

open Grammar

/-! ## §1 The stretches of a reading -/

namespace Reading

/-- Where the tokens begin, and the error if there is one. -/
def starts (reading : Reading) : List Nat :=
  reading.tokens.map (·.span.start) ++ (reading.error?.map (·.span.start)).toList

/-- Where the tokens end. -/
def stops (reading : Reading) : List Nat :=
  reading.tokens.map (·.span.stop)

/-- The gaps: from the first byte or the end of a token to the beginning of the next
token or of the error. -/
def gaps (reading : Reading) : List (Nat × Nat) :=
  (0 :: reading.stops).zip reading.starts

end Reading

/-- The gaps and tokens in order, from the byte `here` on.  What follows an error is one
more stretch, up to the last byte. -/
def stretches (size here : Nat) (error? : Option LexicalError) :
    List PlacedToken → List (Nat × Nat)
  | placed :: more =>
    (here, placed.span.start) :: (placed.span.start, placed.span.stop) ::
      stretches size placed.span.stop error? more
  | [] =>
    match error? with
    | some error => [(here, error.span.start), (error.span.start, size)]
    | none => []

/-- **Tokens tile a text.** -/
structure Tiling (text : List Char) (reading : Reading) : Prop where
  /-- A token takes one byte at least. -/
  forward : ∀ placed ∈ reading.tokens, placed.token.kind ≠ .endOfInput →
    placed.span.start < placed.span.stop
  /-- No token begins before the last one has ended. -/
  ordered : ∀ gap ∈ reading.gaps, gap.1 ≤ gap.2
  /-- Without an error the end of input is the last token, and stands at the end. -/
  ended : reading.error? = none → ∃ before span,
    reading.tokens = before ++ [⟨.endOfInput, span⟩] ∧
      span.start = byteLength text ∧ span.stop = byteLength text ∧
      ∀ placed ∈ before, placed.token.kind ≠ .endOfInput
  /-- With an error the end of input is not reached. -/
  failed : reading.error? ≠ none → ∀ placed ∈ reading.tokens, placed.token.kind ≠ .endOfInput
  /-- Every offset is a character boundary. -/
  boundaries : ∀ offset ∈ reading.starts ++ reading.stops, (takeBytes? offset text).isSome = true
  /-- Scanned alone, the slice of a token gives the token. -/
  slices : ∀ placed ∈ reading.tokens, placed.token.kind ≠ .endOfInput →
    ∃ slice, sliceBytes? placed.span.start placed.span.stop text = some slice ∧
      scan (String.ofList slice) = .ok [placed.token, .endOfInput]
  /-- Scanned alone, a gap gives nothing. -/
  blanks : ∀ gap ∈ reading.gaps,
    ∃ between, sliceBytes? gap.1 gap.2 text = some between ∧
      scan (String.ofList between) = .ok [.endOfInput]
  /-- Written one after the other, the stretches are the text. -/
  whole : ∃ parts,
    List.Forall₂ (fun bounds part => sliceBytes? bounds.1 bounds.2 text = some part)
      (stretches (byteLength text) 0 reading.error? reading.tokens) parts ∧
      parts.flatten = text

/-! ## §2 The text behind the spans -/

/-- A stretch stands between two bytes of a text. -/
def StandsAt (text part : List Char) (start stop : Nat) : Prop :=
  ∃ left right, text = left ++ (part ++ right) ∧
    start = byteLength left ∧ stop = byteLength (left ++ part)

namespace StandsAt

variable {text part : List Char} {start stop : Nat}

theorem slice (hstands : StandsAt text part start stop) :
    sliceBytes? start stop text = some part := by
  obtain ⟨left, right, rfl, rfl, rfl⟩ := hstands
  exact sliceBytes?_middle left part right

theorem le (hstands : StandsAt text part start stop) : start ≤ stop := by
  obtain ⟨left, right, rfl, rfl, rfl⟩ := hstands
  simp

theorem lt (hstands : StandsAt text part start stop) (hinside : part ≠ []) : start < stop := by
  obtain ⟨left, right, rfl, rfl, rfl⟩ := hstands
  have := byteLength_pos hinside
  simp only [byteLength_append]
  omega

theorem isSome_stop (hstands : StandsAt text part start stop) :
    (takeBytes? stop text).isSome = true := by
  obtain ⟨left, right, rfl, rfl, rfl⟩ := hstands
  rw [← List.append_assoc, takeBytes?_append]
  rfl

theorem of_offset {left : List Char} {here : Location} (part right : List Char)
    (hoffset : here.offset = byteLength left) (hwhole : text = left ++ (part ++ right)) :
    StandsAt text part here.offset (here.advance part).offset := by
  refine ⟨left, right, hwhole, hoffset, ?_⟩
  rw [Location.advance_offset, hoffset, byteLength_append]

end StandsAt

section Read

variable {text before rest : List Char} {here : Location} {pieces : List Piece}
  {ending : Ending} {tokens : List PlacedToken} {error? : Option LexicalError}

theorem offset_advance_of_offset (hoffset : here.offset = byteLength before) (part : List Char) :
    (here.advance part).offset = byteLength (before ++ part) := by
  rw [Location.advance_offset, hoffset, byteLength_append]

/-- The span of a token holds a lexeme that denotes it. -/
theorem Grammar.Reads.standsAt_token (hreads : Reads here pieces ending tokens error?)
    (hparts : Decomposes rest pieces ending) (hoffset : here.offset = byteLength before)
    (hwhole : text = before ++ rest) :
    ∀ placed ∈ tokens, placed.token.kind ≠ .endOfInput →
      ∃ lexeme, Denotes lexeme placed.token ∧
        StandsAt text lexeme placed.span.start placed.span.stop := by
  -- `before` is the text that was read already, and grows with each token
  induction hreads generalizing before rest with
  | finished =>
    intro placed hplaced hinside
    obtain rfl := List.mem_singleton.mp hplaced
    exact absurd rfl hinside
  | stray =>
    intro placed hplaced
    cases hplaced
  | @lexeme here gap lexeme pieces ending token tokens error? hdenotes hmore ih =>
    cases hparts with
    | @lexeme _ _ rest _ _ hgap hlongest hparts =>
      intro placed hplaced hinside
      rcases List.mem_cons.mp hplaced with rfl | hplaced
      · refine ⟨lexeme, hdenotes, ?_⟩
        have hbehind := offset_advance_of_offset hoffset gap
        have hstands := StandsAt.of_offset lexeme rest hbehind (hwhole.trans (by simp))
        rwa [← Location.advance_append] at hstands
      · exact ih hparts (offset_advance_of_offset hoffset _) (hwhole.trans (by simp)) placed
          hplaced hinside

/-- Between the tokens stand gaps. -/
theorem Grammar.Reads.standsAt_gap (hreads : Reads here pieces ending tokens error?)
    (hparts : Decomposes rest pieces ending) (hoffset : here.offset = byteLength before)
    (hwhole : text = before ++ rest) :
    ∀ gap ∈ (here.offset :: tokens.map (·.span.stop)).zip
        (tokens.map (·.span.start) ++ (error?.map (·.span.start)).toList),
      ∃ between, IsLastGap between ∧ StandsAt text between gap.1 gap.2 := by
  -- along the reading, with the gap before the place reached at the head of the list
  induction hreads generalizing before rest with
  | @finished here gap =>
    cases hparts with
    | finished hlast =>
      intro bounds hbounds
      obtain rfl := List.mem_singleton.mp hbounds
      exact ⟨gap, hlast, .of_offset gap [] hoffset (hwhole.trans (by simp))⟩
  | @stray here gap rest c =>
    cases hparts with
    | stray hgap hstray =>
      intro bounds hbounds
      obtain rfl := List.mem_singleton.mp hbounds
      exact ⟨gap, .closed hgap, .of_offset _ _ hoffset hwhole⟩
  | @lexeme here gap lexeme pieces ending token tokens error? hdenotes hmore ih =>
    cases hparts with
    | lexeme hgap hlongest hparts =>
      intro bounds hbounds
      rcases List.mem_cons.mp hbounds with rfl | hbounds
      · exact ⟨gap, .closed hgap, .of_offset _ _ hoffset hwhole⟩
      -- the next gap begins where this token has ended
      · exact ih hparts (offset_advance_of_offset hoffset _) (hwhole.trans (by simp)) bounds hbounds

/-- The stretches from a place on are the text behind it. -/
theorem Grammar.Reads.forall₂_stretches (hreads : Reads here pieces ending tokens error?)
    (hparts : Decomposes rest pieces ending) (hoffset : here.offset = byteLength before)
    (hwhole : text = before ++ rest) :
    ∃ written, List.Forall₂ (fun bounds part => sliceBytes? bounds.1 bounds.2 text = some part)
        (stretches (byteLength text) here.offset error? tokens) written ∧
      written.flatten = rest := by
  induction hreads generalizing before rest with
  | @finished here gap =>
    cases hparts with
    | finished hlast =>
      -- the end of input is a stretch of its own, without any text
      have hfirst := StandsAt.of_offset gap [] hoffset (hwhole.trans (by simp))
      have hbehind := offset_advance_of_offset hoffset gap
      have hsecond := StandsAt.of_offset [] [] hbehind (hwhole.trans (by simp))
      exact ⟨[gap, []], .cons hfirst.slice (.cons hsecond.slice .nil), by simp⟩
  | @stray here gap rest c =>
    cases hparts with
    | stray hgap hstray =>
      -- what follows the error is not read, but is a stretch
      have hfirst := StandsAt.of_offset _ _ hoffset hwhole
      have hbehind := offset_advance_of_offset hoffset gap
      have hsecond := StandsAt.of_offset (c :: rest) [] hbehind (hwhole.trans (by simp))
      have hsize : ((here.advance gap).advance (c :: rest)).offset = byteLength text := by
        rw [offset_advance_of_offset hbehind, hwhole, List.append_assoc]
      rw [hsize] at hsecond
      exact ⟨[gap, c :: rest], .cons hfirst.slice (.cons hsecond.slice .nil), by simp⟩
  | @lexeme here gap lexeme pieces ending token tokens error? hdenotes hmore ih =>
    cases hparts with
    | @lexeme _ _ rest _ _ hgap hlongest hparts =>
      have hfirst := StandsAt.of_offset _ _ hoffset hwhole
      have hbehind := offset_advance_of_offset hoffset gap
      -- a token is two stretches, its gap and its lexeme, and the others follow
      have hsecond := StandsAt.of_offset lexeme rest hbehind (hwhole.trans (by simp))
      rw [← Location.advance_append] at hsecond
      obtain ⟨written, hcuts, rfl⟩ := ih hparts (offset_advance_of_offset hoffset _)
        (hwhole.trans (by simp))
      exact ⟨gap :: lexeme :: written, .cons hfirst.slice (.cons hsecond.slice hcuts), by simp⟩

/-- The end of input comes last, at the end of the text, and only if there is no error. -/
theorem Grammar.Reads.endOfInput_last (hreads : Reads here pieces ending tokens error?)
    (hparts : Decomposes rest pieces ending) (hoffset : here.offset = byteLength before)
    (hwhole : text = before ++ rest) :
    (error? = none ∧ ∃ found span, tokens = found ++ [⟨.endOfInput, span⟩] ∧
        span.start = byteLength text ∧ span.stop = byteLength text ∧
        ∀ placed ∈ found, placed.token.kind ≠ .endOfInput) ∨
      (error? ≠ none ∧ ∀ placed ∈ tokens, placed.token.kind ≠ .endOfInput) := by
  induction hreads generalizing before rest with
  | @finished here gap =>
    cases hparts with
    | finished hlast =>
      -- nothing is left behind the last gap
      have hsize : (here.advance gap).offset = byteLength text := by
        rw [offset_advance_of_offset hoffset, hwhole]
      exact .inl ⟨rfl, [], _, rfl, hsize, hsize, List.forall_mem_nil _⟩
  | stray => exact .inr ⟨Option.some_ne_none _, List.forall_mem_nil _⟩
  | @lexeme here gap lexeme pieces ending token tokens error? hdenotes hmore ih =>
    cases hparts with
    | lexeme hgap hlongest hparts =>
      have hfirst := hdenotes.kind_ne_endOfInput
      rcases ih hparts (offset_advance_of_offset hoffset _) (hwhole.trans (by simp)) with
        ⟨hnone, found, span, hsame, hstart, hstop, hinside⟩ | ⟨hsome, hinside⟩
      -- this token is not the end of input, so it neither adds one nor takes one away
      · refine .inl ⟨hnone, _ :: found, span, by rw [hsame]; rfl, hstart, hstop, ?_⟩
        exact List.forall_mem_cons.mpr ⟨hfirst, hinside⟩
      · exact .inr ⟨hsome, List.forall_mem_cons.mpr ⟨hfirst, hinside⟩⟩

/-- Every token ends at a character boundary. -/
theorem Grammar.Reads.isSome_stop (hreads : Reads here pieces ending tokens error?)
    (hparts : Decomposes rest pieces ending) (hoffset : here.offset = byteLength before)
    (hwhole : text = before ++ rest) :
    ∀ placed ∈ tokens, (takeBytes? placed.span.stop text).isSome = true := by
  intro placed hplaced
  by_cases hinside : placed.token.kind = .endOfInput
  · -- the end of input ends where the text does
    have hsize : placed.span.stop = byteLength text := by
      rcases hreads.endOfInput_last hparts hoffset hwhole with
        ⟨-, found, span, rfl, -, hstop, hbefore⟩ | ⟨-, hnone⟩
      · rcases List.mem_append.mp hplaced with hearlier | hnew
        · exact absurd hinside (hbefore placed hearlier)
        · obtain rfl := List.mem_singleton.mp hnew
          exact hstop
      · exact absurd hinside (hnone placed hplaced)
    have hcut := takeBytes?_append text []
    rw [List.append_nil] at hcut
    rw [hsize, hcut]
    rfl
  · obtain ⟨lexeme, -, hstands⟩ :=
      hreads.standsAt_token hparts hoffset hwhole placed hplaced hinside
    exact hstands.isSome_stop

end Read

/-! ## §3 Every program is tiled -/

/-- There is one gap before each token and one before the error. -/
theorem Reading.map_snd_gaps (reading : Reading) :
    reading.gaps.map Prod.snd = reading.starts := by
  refine List.map_snd_zip ?_
  cases reading.error? <;> simp [starts, stops]

/-- **The tokens of a program tile it.**  The spans are in order and apart; each slice
gives its token and each gap gives nothing when it is scanned alone; together they are
the program. -/
theorem tiling_readProgram (source : String) : Tiling source.toList (readProgram source) := by
  obtain ⟨pieces, ending, hparts⟩ := exists_decomposes source.toList
  have hreads := @readAll_reads (.start source.toList) _ _ _ hparts rfl
  have hoffset : (Scanner.start source.toList).cursor.location.offset = byteLength [] := rfl
  have hwhole : source.toList = [] ++ source.toList := rfl
  -- every span holds a lexeme and every gap a last gap; the rest is read off these
  have htokens := hreads.standsAt_token hparts hoffset hwhole
  have hgaps := hreads.standsAt_gap hparts hoffset hwhole
  have hlast := hreads.endOfInput_last hparts hoffset hwhole
  refine
    { forward := ?_, ordered := ?_, ended := ?_, failed := ?_, boundaries := ?_, slices := ?_,
      blanks := ?_, whole := hreads.forall₂_stretches hparts hoffset hwhole }
  · intro placed hplaced hinside
    obtain ⟨lexeme, hdenotes, hstands⟩ := htokens placed hplaced hinside
    exact hstands.lt hdenotes.isLexeme.ne_nil
  · intro gap hgap
    obtain ⟨between, -, hstands⟩ := hgaps gap hgap
    exact hstands.le
  · intro hnone
    rcases hlast with ⟨-, hfound⟩ | ⟨hsome, -⟩
    · exact hfound
    · exact absurd hnone hsome
  · intro hsome
    rcases hlast with ⟨hnone, -⟩ | ⟨-, hinside⟩
    · exact absurd hnone hsome
    · exact hinside
  · intro position hposition
    rcases List.mem_append.mp hposition with hstart | hbehind
    · -- every beginning is the end of a gap
      rw [← Reading.map_snd_gaps] at hstart
      obtain ⟨gap, hgap, rfl⟩ := List.mem_map.mp hstart
      obtain ⟨between, -, hstands⟩ := hgaps gap hgap
      exact hstands.isSome_stop
    · obtain ⟨placed, hplaced, rfl⟩ := List.mem_map.mp hbehind
      exact hreads.isSome_stop hparts hoffset hwhole placed hplaced
  · intro placed hplaced hinside
    obtain ⟨lexeme, hdenotes, hstands⟩ := htokens placed hplaced hinside
    exact ⟨lexeme, hstands.slice, scan_of_denotes hdenotes⟩
  · intro gap hgap
    obtain ⟨between, hisGap, hstands⟩ := hgaps gap hgap
    exact ⟨between, hstands.slice, scan_of_lastGap hisGap⟩

end MiniPascal
