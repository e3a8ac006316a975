import MiniPascal.Proofs.Grammar.LetterCase
import MiniPascal.Proofs.Scan.Tiling
import MiniPascal.Proofs.Token.WellFormed

/-!
# Programs in Either Case

The language takes no notice of the case of its letters, up to the spelling of names.  Two
scanners at the same place, before texts that are the same but for the case of their ASCII
letters, find the same tokens at the same places and fail alike (§1).  For whole programs
this is `readProgram_sameLetters`, which also says where a name gets its spelling from: it is
the part of the program that stands there.
-/

namespace MiniPascal

open Grammar

namespace Scanner

/-! ## §1 Two scanners -/

/-- `other` stands where `scanner` does, and has the same text to read but for the case of
its letters. -/
structure SameButCase (scanner other : Scanner) : Prop where
  rest : SameLetters scanner.cursor.rest other.cursor.rest
  location : scanner.cursor.location = other.cursor.location

variable {scanner other : Scanner}

/-- **The same token is found**, up to the spelling of a name, and at the same place. -/
theorem SameButCase.token {token : Token} (hsame : scanner.SameButCase other)
    (hfound : scanner.nextToken.result = .ok token) :
    ∃ token', other.nextToken.result = .ok token' ∧ token.SameButCase token' ∧
      scanner.nextToken.scanner.tokenSpan = other.nextToken.scanner.tokenSpan ∧
      scanner.nextToken.scanner.SameButCase other.nextToken.scanner := by
  obtain ⟨after, heq, hfinds⟩ := exists_finds hfound
  rw [heq]
  cases hfinds with
  | endOfInput hlast =>
    obtain ⟨hresult, hafter⟩ := nextToken_of_lastGap (hlast.sameLetters hsame.rest)
    have hthere := hsame.rest.advance_eq scanner.cursor.location
    rw [hafter, behind, List.append_nil, ← hsame.location, ← hthere]
    exact ⟨_, hresult, .inl rfl, rfl, rfl, rfl⟩
  | @token gap lexeme rest _ hbefore hlongest hwhole hdenotes =>
    -- the other text falls apart in the same way
    have hparts := hsame.rest
    rw [hwhole] at hparts
    obtain ⟨gap', _, hwhole', hgaps, hbehind⟩ := hparts.exists_append
    obtain ⟨lexeme', rest', rfl, hlexemes, hrests⟩ := hbehind.exists_append
    obtain ⟨token', hdenotes', hresult, hafter⟩ := nextToken_of_lexeme (hbefore.sameLetters hgaps)
      (hlongest.sameLetters hlexemes hrests) hwhole'
    -- the lexeme there denotes a token of its own, which is this one up to the spelling
    obtain ⟨again, hdenotes'', hspelled⟩ := hdenotes.sameLetters hlexemes
    obtain rfl := hdenotes'.unique hdenotes''
    -- letters of either case take one byte and one column
    have hstart := hgaps.advance_eq scanner.cursor.location
    have hstop := (hgaps.append hlexemes).advance_eq scanner.cursor.location
    rw [hafter, ← hsame.location, ← hstart, ← hstop]
    exact ⟨_, hresult, hspelled, rfl, hrests, rfl⟩

/-- **The same error is found**, as its character is not a letter. -/
theorem SameButCase.error {error : LexicalError} (hsame : scanner.SameButCase other)
    (hfailed : scanner.nextToken.result = .error error) :
    other.nextToken.result = .error error := by
  obtain ⟨after, -, hfinds⟩ := exists_finds hfailed
  cases hfinds with
  | @stray gap rest c hbefore hstray hwhole =>
    have hparts := hsame.rest
    rw [hwhole] at hparts
    obtain ⟨gap', _, hwhole', hgaps, hbehind⟩ := hparts.exists_append
    obtain ⟨d, rest', rfl, hcharacter, -⟩ := hbehind.exists_cons
    -- only letters can differ, and a letter is never stray
    obtain rfl := hcharacter.eq_of_not_isAlpha hstray.not_isAlpha
    obtain ⟨hresult, -⟩ := nextToken_of_stray (hbefore.sameLetters hgaps) hstray hwhole'
    rw [hresult, ← hsame.location, ← hgaps.advance_eq scanner.cursor.location]

/-- Reading to the end finds the same tokens and the same error. -/
theorem SameButCase.readAll (hsame : scanner.SameButCase other) :
    List.Forall₂
        (fun left right => left.token.SameButCase right.token ∧ left.span = right.span)
        scanner.readAll.tokens other.readAll.tokens ∧
      scanner.readAll.error? = other.readAll.error? := by
  induction scanner using reading_induction generalizing other with
  | ended scanner hresult =>
    obtain ⟨token', hresult', hspelled, hspan, -⟩ := hsame.token hresult
    obtain rfl := hspelled.eq_of_kind_ne nofun
    rw [readAll_of_endOfInput hresult, readAll_of_endOfInput hresult']
    exact ⟨.cons ⟨hspelled, hspan⟩ .nil, rfl⟩
  | failed scanner error hresult =>
    rw [readAll_of_error hresult, readAll_of_error (hsame.error hresult)]
    exact ⟨.nil, rfl⟩
  | found scanner token hresult hinside ih =>
    obtain ⟨token', hresult', hspelled, hspan, hbehind⟩ := hsame.token hresult
    have hinside' : token'.kind ≠ .endOfInput := hspelled.kind_eq ▸ hinside
    obtain ⟨htokens, herror⟩ := ih hbehind
    rw [readAll_of_token hresult hinside, readAll_of_token hresult' hinside']
    exact ⟨.cons ⟨hspelled, hspan⟩ htokens, herror⟩

end Scanner

/-! ## §2 Whole programs -/

/-- The name that stands in the span of a token is the text of the token. -/
theorem exists_name_slice {source : String} {placed : PlacedToken}
    (hread : placed ∈ (readProgram source).tokens) (hname : placed.token.kind = .identifier) :
    ∃ name, placed.token = .identifier name ∧
      sliceBytes? placed.span.start placed.span.stop source.toList = some name.toList := by
  obtain ⟨pieces, ending, hparts⟩ := exists_decomposes source.toList
  have hreads := @readAll_reads (.start source.toList) _ _ _ hparts rfl
  -- a name is not the end of input, so a lexeme stands in its span
  have hinside : placed.token.kind ≠ .endOfInput := hname ▸ nofun
  have hoffset : (Scanner.start source.toList).cursor.location.offset = byteLength [] := rfl
  have hwhole : source.toList = [] ++ source.toList := rfl
  obtain ⟨lexeme, hdenotes, hstands⟩ :=
    hreads.standsAt_token hparts hoffset hwhole placed hread hinside
  have hvalue := ((wellFormed_of_denotes hdenotes).identifier hname).1
  refine ⟨String.ofList lexeme, ?_, ?_⟩
  · show (⟨placed.token.kind, placed.token.value⟩ : Token) = _
    rw [hname, hvalue]
    rfl
  · rw [String.toList_ofList]
    exact hstands.slice

/-- **One token of two programs**, `left` and `right`, that are the same but for the case of
their letters. -/
structure SameToken (left right : String) (placed other : PlacedToken) : Prop where
  kind : placed.token.kind = other.token.kind
  span : placed.span = other.span
  /-- Only the value of a name depends on its spelling. -/
  value : placed.token.kind ≠ .identifier → placed.token.value = other.token.value
  /-- A name is the part of its own program that stands there, and in upper case the two are
  the same. -/
  name : placed.token.kind = .identifier → ∃ x y,
    placed.token.value = some (.text x) ∧ other.token.value = some (.text y) ∧
    sliceBytes? placed.span.start placed.span.stop left.toList = some x.toList ∧
    sliceBytes? other.span.start other.span.stop right.toList = some y.toList ∧
    upperCase x = upperCase y

/-- **The language takes no notice of the case of letters** but for the spelling of names.
Programs that differ only in the case of ASCII letters, wherever these are, are read into the
same tokens at the same places, and fail with the same error if one of them fails. -/
theorem readProgram_sameLetters {left right : String} (hsame : upperCase left = upperCase right) :
    List.Forall₂ (SameToken left right) (readProgram left).tokens (readProgram right).tokens ∧
    ∀ error, scan left = .error error ↔ scan right = .error error := by
  have hstarts : (Scanner.start left.toList).SameButCase (.start right.toList) :=
    ⟨(upperCase_eq_iff left right).mp hsame, rfl⟩
  obtain ⟨htokens, herror⟩ := hstarts.readAll
  constructor
  · -- the tokens come in pairs; only a name has to be looked up in its own program
    obtain ⟨hsize, hpairs⟩ := List.forall₂_iff_zip.mp htokens
    refine List.forall₂_iff_zip.mpr ⟨hsize, ?_⟩
    intro placed other hamong
    obtain ⟨hspelled, hspan⟩ := hpairs hamong
    obtain ⟨hfirst, hsecond⟩ := List.of_mem_zip hamong
    refine
      { kind := hspelled.kind_eq
        span := hspan
        value := fun hother => congrArg Token.value (hspelled.eq_of_kind_ne hother)
        name := fun hname => ?_ }
    obtain ⟨x, hwritten, hstandsLeft⟩ := exists_name_slice hfirst hname
    obtain ⟨y, hwritten', hstandsRight⟩ := exists_name_slice hsecond (hspelled.kind_eq ▸ hname)
    refine ⟨x, y, by rw [hwritten]; rfl, by rw [hwritten']; rfl, hstandsLeft, hstandsRight, ?_⟩
    rw [hwritten, hwritten'] at hspelled
    exact hspelled.upperCase_eq
  · intro failure
    have hfailed : (readProgram left).error? = (readProgram right).error? := herror
    rw [scan, Reading.outcome_eq_error_iff, hfailed, ← Reading.outcome_eq_error_iff, ← scan]

/-- A reserved word, a comment, a name, and a letter that is no ASCII letter: the long s, whose
upper case is one. -/
theorem readProgram_sameLetters_longS :
    let left := "beGin \x7béK\x7d Foo1 ſ"
    let right := "Begin \x7bék\x7d fOo1 ſ"
    List.Forall₂ (SameToken left right) (readProgram left).tokens (readProgram right).tokens ∧
      scan right = .error ⟨'ſ', ⟨17, 19, 1, 17⟩⟩ := by
  intro left right
  have hsame : upperCase left = upperCase right := by decide +kernel
  have hfailure : scan left = .error ⟨'ſ', ⟨17, 19, 1, 17⟩⟩ := by decide +kernel
  obtain ⟨htokens, hfailed⟩ := readProgram_sameLetters hsame
  exact ⟨htokens, (hfailed _).mp hfailure⟩

end MiniPascal
