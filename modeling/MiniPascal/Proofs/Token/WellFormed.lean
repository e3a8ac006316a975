import MiniPascal.Proofs.Scan.Step
import MiniPascal.Proofs.Token.Spelling
import MiniPascal.Token.Json

/-!
# Scanned Tokens Are Well Formed

Tokens may be formed freely, but a scanner gives only some of them.  `Token.WellFormed` says
which ones: what the kind of a token tells about its value and about the text that it was
scanned from.  `wellFormed_of_denotes` goes through the lexemes of the grammar, and
`wellFormed_nextToken` says it of every token that is scanned, in whatever state the scanner
was before.
-/

namespace MiniPascal

open Grammar

/-! ## §1 Well-formed tokens -/

/-- **Well-formed tokens**, with the text that they stand on. -/
structure Token.WellFormed (token : Token) (slice : List Char) : Prop where
  /-- Two of the kinds are never scanned. -/
  kind_ne_backslash : token.kind ≠ .backslash
  kind_ne_realDivision : token.kind ≠ .realDivision
  /-- Only the end of input has no value. -/
  value_eq_none_iff : token.value = none ↔ token.kind = .endOfInput
  /-- A reserved word carries its spelling in the table, where it is listed with this very
  token. -/
  reserved : token.kind.isReserved = true → ∃ word, token.value = some (.text word) ∧
    reservedWords.lookup word = some token ∧ upperCase word = word ∧
    slice.map Char.toUpper = word.toList
  /-- A mark carries its symbol, as it is written. -/
  mark : ∀ symbol, token.kind.symbol? = some symbol →
    token.value = some (.text symbol) ∧ slice = symbol.toList
  /-- A name is carried as it is written. -/
  identifier : token.kind = .identifier →
    token.value = some (.text (String.ofList slice)) ∧ IsName slice
  /-- An integer literal is written with digits, and its number is in range. -/
  integer : token.kind = .integerLiteral → slice ≠ [] ∧ (∀ c ∈ slice, c.isDigit = true) ∧
    ∃ n : Nat, token.value = some (.integer n) ∧ n ≤ Token.largestInteger
  /-- A real literal is written with digits, a point and any digits, and its number is the
  one that these denote, which is finite and has no sign. -/
  real : token.kind = .realLiteral → ∃ whole fraction, slice = whole ++ '.' :: fraction ∧
    whole ≠ [] ∧ (∀ c ∈ whole, c.isDigit = true) ∧ (∀ c ∈ fraction, c.isDigit = true) ∧
    token.value = some (.real (realValue whole fraction)) ∧
    (realValue whole fraction).isFinite = true ∧ (realValue whole fraction).isNegative = false
  /-- As JSON only the end of input has a missing value. -/
  null_iff : token.valueScalar.text = "null" ↔ token.kind = .endOfInput

/-! ## §2 Values as JSON -/

theorem quote_ne_null (text : String) : Json.quote text ≠ "null" := by
  intro hsame
  have hchars := congrArg String.toList hsame
  rw [Json.quote, String.toList_ofList] at hchars
  -- a string in JSON begins with a quotation mark
  cases hchars

/-- The letters of `null` are not those of a number. -/
theorem ne_null_of_isNumeral {text : String} (hall : ∀ c ∈ text.toList, isNumeral c = true) :
    text ≠ "null" := by
  rintro rfl
  exact absurd (hall 'n' (by decide)) (by decide)

theorem realText_ne_null {x : Binary64} (hfinite : x.isFinite = true) :
    (Json.Scalar.real x).text ≠ "null" := by
  simp only [Json.Scalar.text, hfinite, if_true]
  exact ne_null_of_isNumeral fun _ => isNumeral_of_mem_finite (by decide)

/-! ## §3 The token of a lexeme -/

section Denoted

/-- The kinds that are written as a reserved word are told from the others. -/
theorem kind_of_reservedWord? {kind : TokenKind} {word : String}
    (hknown : kind.reservedWord? = some word) :
    kind ≠ .backslash ∧ kind ≠ .realDivision ∧ kind ≠ .endOfInput ∧ kind.symbol? = none ∧
      kind ≠ .identifier ∧ kind ≠ .integerLiteral ∧ kind ≠ .realLiteral ∧
      upperCase word = word := by
  -- the table of words is gone through once, here
  cases kind <;> simp only [TokenKind.reservedWord?, reduceCtorEq, Option.some.injEq] at hknown <;>
    subst hknown <;> decide

theorem wellFormed_reserved {text : List Char} {kind : TokenKind} {word : String}
    (hknown : kind.reservedWord? = some word) (hsame : text.map Char.toUpper = word.toList) :
    (Token.spelled kind word).WellFormed text := by
  have hlisted := (lookup_reservedWords_iff word (.spelled kind word)).mpr ⟨kind, hknown, rfl⟩
  obtain ⟨hbackslash, hdivision, hended, hsymbol, hname, hinteger, hreal, hupper⟩ :=
    kind_of_reservedWord? hknown
  exact
    { kind_ne_backslash := hbackslash
      kind_ne_realDivision := hdivision
      value_eq_none_iff := by simp [Token.spelled, hended]
      reserved := fun _ => ⟨word, rfl, hlisted, hupper, hsame⟩
      mark := fun _ hfound => by simp [Token.spelled, hsymbol] at hfound
      identifier := fun hfound => absurd hfound hname
      integer := fun hfound => absurd hfound hinteger
      real := fun hfound => absurd hfound hreal
      null_iff := iff_of_false (quote_ne_null word) hended }

/-- The kinds that have a symbol are told from the others. -/
theorem kind_of_symbol? {kind : TokenKind} {symbol : String} (hknown : kind.symbol? = some symbol) :
    kind ≠ .realDivision ∧ kind ≠ .endOfInput ∧ kind.isReserved = false ∧
      kind ≠ .identifier ∧ kind ≠ .integerLiteral ∧ kind ≠ .realLiteral := by
  cases kind <;> simp only [TokenKind.symbol?, reduceCtorEq] at hknown <;> decide

theorem wellFormed_spelled {kind : TokenKind} {symbol : String}
    (hknown : kind.symbol? = some symbol) (hscanned : kind ≠ .backslash) :
    (Token.spelled kind symbol).WellFormed symbol.toList := by
  obtain ⟨hdivision, hended, hreserved, hname, hinteger, hreal⟩ := kind_of_symbol? hknown
  exact
    { kind_ne_backslash := hscanned
      kind_ne_realDivision := hdivision
      value_eq_none_iff := by simp [Token.spelled, hended]
      reserved := fun hfound => by simp [Token.spelled, hreserved] at hfound
      -- a kind has one symbol only
      mark := fun other hfound => by
        obtain rfl := Option.some.inj (hknown.symm.trans hfound)
        exact ⟨rfl, rfl⟩
      identifier := fun hfound => absurd hfound hname
      integer := fun hfound => absurd hfound hinteger
      real := fun hfound => absurd hfound hreal
      null_iff := iff_of_false (quote_ne_null symbol) hended }

theorem wellFormed_identifier {text : List Char} (hname : IsName text) :
    (Token.identifier (String.ofList text)).WellFormed text where
  kind_ne_backslash := nofun
  kind_ne_realDivision := nofun
  value_eq_none_iff := by simp [Token.identifier, Token.spelled]
  reserved := nofun
  mark := nofun
  identifier := fun _ => ⟨rfl, hname⟩
  integer := nofun
  real := nofun
  null_iff := iff_of_false (quote_ne_null _) nofun

theorem wellFormed_integer {digits : List Char} (hinside : digits ≠ [])
    (hall : ∀ c ∈ digits, c.isDigit = true) {n : Nat} (hsmall : n ≤ Token.largestInteger) :
    (Token.integer n).WellFormed digits where
  kind_ne_backslash := nofun
  kind_ne_realDivision := nofun
  value_eq_none_iff := by simp [Token.integer]
  reserved := nofun
  mark := nofun
  identifier := nofun
  integer := fun _ => ⟨hinside, hall, n, rfl, hsmall⟩
  real := nofun
  null_iff := iff_of_false (ne_null_of_isNumeral fun _ => isNumeral_of_mem_integerText) nofun

theorem wellFormed_real {whole fraction : List Char} (hinside : whole ≠ [])
    (hleft : ∀ c ∈ whole, c.isDigit = true) (hright : ∀ c ∈ fraction, c.isDigit = true) :
    (Token.real (realValue whole fraction)).WellFormed (whole ++ '.' :: fraction) where
  kind_ne_backslash := nofun
  kind_ne_realDivision := nofun
  value_eq_none_iff := by simp [Token.real]
  reserved := nofun
  mark := nofun
  identifier := nofun
  integer := nofun
  real := fun _ => ⟨whole, fraction, rfl, hinside, hleft, hright, rfl,
    realValue_finite whole fraction⟩
  null_iff := iff_of_false (realText_ne_null (realValue_finite whole fraction).1) nofun

theorem wellFormed_endOfInput : Token.endOfInput.WellFormed [] where
  kind_ne_backslash := nofun
  kind_ne_realDivision := nofun
  value_eq_none_iff := by simp [Token.endOfInput]
  reserved := nofun
  mark := nofun
  identifier := nofun
  integer := nofun
  real := nofun
  null_iff := iff_of_true rfl rfl

/-- **The token of a lexeme is well formed**, for each family of lexemes. -/
theorem wellFormed_of_denotes {lexeme : List Char} {token : Token}
    (hdenotes : Denotes lexeme token) : token.WellFormed lexeme := by
  cases hdenotes with
  | integer hinside hall => exact wellFormed_integer hinside hall (Nat.min_le_right _ _)
  | real hinside hleft hright => exact wellFormed_real hinside hleft hright
  | reserved hknown hsame => exact wellFormed_reserved hknown hsame
  | @name first more hletter hall hfree =>
    exact wellFormed_identifier ⟨⟨first, more, rfl, hletter, hall⟩, (notReserved_iff _).mpr hfree⟩
  | assign => exact wellFormed_spelled rfl nofun
  | @mark c kind hknown hsame =>
    have hwritten : (String.singleton c).toList = [c] := by simp
    have hscanned : kind ≠ .backslash := by
      rintro rfl
      -- no mark of the language is a backslash
      have hbackslash : c = '\\' := by
        have := congrArg String.toList (Option.some.inj hsame)
        rw [hwritten] at this
        exact (List.cons.inj this).1.symm
      rw [hbackslash] at hknown
      exact absurd hknown (by decide)
    have hwellFormed := wellFormed_spelled hsame hscanned
    rwa [hwritten] at hwellFormed

end Denoted

/-! ## §4 Every scanned token -/

namespace Scanner

/-- **Every scanned token is well formed**, on the slice of its span, whatever was done with
the scanner before.  The end of input is found at the end of the text only. -/
theorem wellFormed_nextToken (source : List Char) (operations : List Operation)
    {token : Token} (hfound : ((start source).run operations).nextToken.result = .ok token) :
    let later := ((start source).run operations).nextToken.scanner
    (∃ slice, sliceBytes? later.tokenSpan.start later.tokenSpan.stop source = some slice ∧
      token.WellFormed slice) ∧
    (token.kind = .endOfInput → later.position = byteLength source) := by
  -- whatever was done before, the scanner stands somewhere in the text
  obtain ⟨marked, passed, hstands⟩ := exists_stands_run source operations
  obtain ⟨later, hsame, hfinds⟩ := exists_finds hfound
  rw [hsame]
  cases hfinds with
  | endOfInput =>
    have hwhole : ((start source).run operations).cursor.rest = _ ++ ([] ++ []) :=
      (List.append_nil _).symm
    have hthere := hstands.behind hwhole
    exact ⟨⟨[], hthere.slice, wellFormed_endOfInput⟩, fun _ => hthere.position_of_end rfl⟩
  | @token gap lexeme rest _ hbefore hlongest hwhole hdenotes =>
    have hthere := hstands.behind hwhole
    exact ⟨⟨lexeme, hthere.slice, wellFormed_of_denotes hdenotes⟩,
      fun hended => absurd hended hdenotes.kind_ne_endOfInput⟩

/-- Called in the middle of a word, behind a comment that nothing opened, the scanner finds
the rest of the word. -/
theorem wellFormed_nextToken_insideWord :
    let before := (start "é\x7dxEnd".toList).run [.skipComment, .advance]
    before.nextToken.result = .ok (.spelled .endWord "END") ∧
      ∃ slice, sliceBytes? before.nextToken.scanner.tokenSpan.start
          before.nextToken.scanner.tokenSpan.stop "é\x7dxEnd".toList = some slice ∧
        (Token.spelled .endWord "END").WellFormed slice := by
  intro before
  have hfound : before.nextToken.result = .ok (.spelled .endWord "END") := by
    decide +kernel
  exact ⟨hfound, (wellFormed_nextToken _ _ hfound).1⟩

end Scanner

end MiniPascal
