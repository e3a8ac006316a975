import MiniPascal.Proofs.Scan.Step
import MiniPascal.Proofs.Token.Spelling
import MiniPascal.TokenDump

/-!
# What Token Dumps Write

The text dump drives the scanner on its own, token by token, and the JSON dump works on a
finished reading.  Both come to what a reading gives.

- `lines_eq`: the lines of the text dump are those of the tokens of a reading;
- `lineFeed_not_mem_line`: a token takes one line, whatever its value is;
- `dump_of_scan`: how the two dumps end, and what they have written then.
-/

namespace MiniPascal

open Grammar

/-! ## §1 Text made of lines -/

/-- A line without what stands up to its first tab. -/
def behindTab (line : List Char) : List Char := (line.dropWhile (· ≠ '\t')).drop 1

theorem behindTab_append {left : List Char} (hfree : '\t' ∉ left) (right : List Char) :
    behindTab (left ++ '\t' :: right) = right := by
  rw [behindTab, List.dropWhile_append_of_pos (forall_ne_of_not_mem hfree)]
  simp

/-- Lines with a line feed behind each are told apart by the line feeds, and the text ends
in an empty line. -/
theorem splitLines_flatMap {lines : List (List Char)} (hfree : ∀ line ∈ lines, '\n' ∉ line) :
    splitLines (lines.flatMap (· ++ ['\n'])) = lines ++ [[]] := by
  induction lines with
  | nil => rfl
  | cons line lines ih =>
    obtain ⟨hfirst, hmore⟩ := List.forall_mem_cons.mp hfree
    -- the first line ends at its line feed, which no line has inside
    rw [List.flatMap_cons, List.append_assoc, List.singleton_append, splitLines,
      pieces_append_separator, pieces_of_not_mem hfirst]
    exact congrArg (line :: ·) (ih hmore)

theorem intercalate_concat_nil (lines : List (List Char)) :
    ['\n'].intercalate (lines ++ [[]]) = lines.flatMap (· ++ ['\n']) := by
  induction lines with
  | nil => rfl
  | cons line lines ih =>
    rw [List.flatMap_cons, ← ih]
    -- an empty line at the end takes the last line feed
    cases lines <;> simp

/-! ## §2 The line of a token -/

namespace TokenDump

/-- The line of a token, with its place if asked. -/
def placedLine (positions : Bool) (placed : PlacedToken) : String :=
  line placed.token (if positions then some placed.span else none)

theorem toList_line (token : Token) :
    (line token none).toList
      = "type=".toList ++ token.kind.name.toList ++ "\tvalue=".toList ++
          token.valueText.toList := by
  simp [line]

theorem toList_placedLine (placed : PlacedToken) :
    (placedLine true placed).toList
      = (decimal placed.span.line ++ ':' :: decimal placed.span.column) ++
          '\t' :: (placedLine false placed).toList := by
  simp [placedLine, line, Span.placeText, naturalText]

/-- A place has neither tabs nor line feeds, nor any other blank. -/
theorem not_mem_place {c : Char} (hblank : isBlank c = true) (line column : Nat) :
    c ∉ decimal line ++ ':' :: decimal column := by
  intro hinside
  have hvisible : isBlank c = false := by
    rcases List.mem_append.mp hinside with hdigit | hbehind
    · exact isBlank_of_isDigit (isDigit_of_mem_decimal _ c hdigit)
    · rcases List.mem_cons.mp hbehind with rfl | hdigit
      · decide
      · exact isBlank_of_isDigit (isDigit_of_mem_decimal _ c hdigit)
  rw [hvisible] at hblank
  cases hblank

end TokenDump

/-! ## §3 The tokens of a reading -/

/-- A token that scanning can give: the end of input, or what a lexeme denotes. -/
def Token.IsScanned (token : Token) : Prop :=
  token = .endOfInput ∨ ∃ lexeme, Denotes lexeme token

namespace Scanner

/-- The tokens of a reading are denoted by lexemes, and the end of input follows them unless
there is an error. -/
theorem tokens_readAll (scanner : Scanner) :
    ∃ before, (∀ token ∈ before, ∃ lexeme, Denotes lexeme token) ∧
      scanner.readAll.tokens.map PlacedToken.token
        = before ++ if scanner.readAll.error?.isNone then [.endOfInput] else [] := by
  obtain ⟨pieces, ending, hparts⟩ := exists_decomposes scanner.cursor.rest
  obtain ⟨before, heach, hsame⟩ := (readAll_reads hparts rfl).denotes
  refine ⟨before, ?_, hsame⟩
  -- the lexemes are paired with the tokens one by one
  generalize pieces.map Piece.lexeme = lexemes at heach
  clear hsame
  induction heach with
  | nil => exact List.forall_mem_nil _
  | cons hdenotes _ ih => exact List.forall_mem_cons.mpr ⟨⟨_, hdenotes⟩, ih⟩

theorem isScanned_of_mem_readAll {scanner : Scanner} {placed : PlacedToken}
    (hread : placed ∈ scanner.readAll.tokens) : placed.token.IsScanned := by
  obtain ⟨before, hdenoted, hsame⟩ := tokens_readAll scanner
  have hlisted := List.mem_map_of_mem (f := PlacedToken.token) hread
  rw [hsame] at hlisted
  -- the end of input is the one token that no lexeme denotes
  rcases List.mem_append.mp hlisted with hinside | hlast
  · exact .inr (hdenoted _ hinside)
  · split at hlast
    · exact .inl (List.mem_singleton.mp hlast)
    · cases hlast

end Scanner

/-- No value of a scanned token is written with a blank. -/
theorem Token.not_mem_valueText {token : Token} {c : Char} (hblank : isBlank c = true)
    (hscanned : token.IsScanned) :
    c ∉ token.valueText.toList := by
  intro hinside
  have hvisible : isBlank c = false := by
    rcases hscanned with rfl | ⟨lexeme, hdenotes⟩
    · -- the value of the end of input is missing, which is written with letters
      have hmissing : Token.endOfInput.valueText.toList = ['N', 'o', 'n', 'e'] := rfl
      rw [hmissing] at hinside
      simp only [List.mem_cons, List.not_mem_nil, or_false] at hinside
      rcases hinside with rfl | rfl | rfl | rfl <;> rfl
    · exact hdenotes.isBlank_valueText hinside
  rw [hvisible] at hblank
  cases hblank

namespace TokenDump

/-- **A token takes one line.** -/
theorem lineFeed_not_mem_line {token : Token}
    (hscanned : token.IsScanned) :
    '\n' ∉ (line token none).toList := by
  have hname : '\n' ∉ token.kind.name.toList := by
    cases token.kind <;> decide
  -- the labels are fixed, the names of the kinds are finitely many, and values have no blanks
  rw [toList_line]
  simp only [List.mem_append, not_or]
  exact ⟨⟨⟨by decide, hname⟩, by decide⟩, Token.not_mem_valueText rfl hscanned⟩

theorem lineFeed_not_mem_placedLine {placed : PlacedToken}
    (hscanned : placed.token.IsScanned) :
    '\n' ∉ (placedLine true placed).toList := by
  rw [toList_placedLine]
  intro hinside
  -- place, tab and plain line
  rcases List.mem_append.mp hinside with hplace | hbehind
  · exact not_mem_place rfl _ _ hplace
  · rcases List.mem_cons.mp hbehind with htab | hplain
    · cases htab
    · exact lineFeed_not_mem_line hscanned hplain

/-- Without its place a line is the plain line. -/
theorem behindTab_placedLine (placed : PlacedToken) :
    behindTab (placedLine true placed).toList = (placedLine false placed).toList := by
  rw [toList_placedLine]
  exact behindTab_append (not_mem_place rfl _ _) _

/-! ## §4 The text dump -/

section Unfold

variable {positions : Bool} {scanner : Scanner}

theorem lines_of_error {error : LexicalError} (hfailed : scanner.nextToken.result = .error error) :
    lines positions scanner
      = ([], some error, scanner.nextToken.events, scanner.nextToken.scanner) := by
  rw [lines]
  split
  · rename_i hfound
    rw [hfound] at hfailed ⊢
    obtain rfl := Except.error.inj hfailed
    rfl
  · rename_i hfound
    rw [hfound] at hfailed
    cases hfailed

theorem lines_of_endOfInput (hended : scanner.nextToken.result = .ok .endOfInput) :
    lines positions scanner
      = ([placedLine positions ⟨.endOfInput, scanner.nextToken.scanner.tokenSpan⟩ ++ "\n"], none,
          scanner.nextToken.events, scanner.nextToken.scanner) := by
  rw [lines]
  split
  · rename_i hfound
    rw [hfound] at hended
    cases hended
  · rename_i hfound
    rw [hfound] at hended ⊢
    obtain rfl := Except.ok.inj hended
    rfl

theorem lines_of_token {token : Token} (hfound : scanner.nextToken.result = .ok token)
    (hinside : token.kind ≠ .endOfInput) :
    lines positions scanner
      = ((placedLine positions ⟨token, scanner.nextToken.scanner.tokenSpan⟩ ++ "\n") ::
            (lines positions scanner.nextToken.scanner).1,
          (lines positions scanner.nextToken.scanner).2.1,
          scanner.nextToken.events ++ (lines positions scanner.nextToken.scanner).2.2.1,
          (lines positions scanner.nextToken.scanner).2.2.2) := by
  rw [lines]
  split
  · rename_i hfailed
    rw [hfailed] at hfound
    cases hfound
  · -- the recursion is guarded by the kind of the token, which is not that of the end
    rename_i hnext
    rw [hnext] at hfound ⊢
    obtain rfl := Except.ok.inj hfound
    rw [dif_pos hinside]
    rfl

end Unfold

/-- **The lines are those of a reading**, one for each of its tokens, and the error, the
events and the scanner are the same. -/
theorem lines_eq (positions : Bool) (scanner : Scanner) :
    lines positions scanner
      = (scanner.readAll.tokens.map (fun placed => placedLine positions placed ++ "\n"),
          scanner.readAll.error?, scanner.readAll.events, scanner.readAll.scanner) := by
  -- both loops ask for one token after the other, so their equations are compared step by step
  induction scanner using Scanner.reading_induction with
  | ended scanner hresult =>
    rw [lines_of_endOfInput hresult, readAll_of_endOfInput hresult]
    rfl
  | failed scanner error hresult =>
    rw [lines_of_error hresult, readAll_of_error hresult]
    rfl
  | found scanner token hresult hinside ih =>
    rw [lines_of_token hresult hinside, readAll_of_token hresult hinside, ih]
    rfl

theorem text_eq (positions : Bool) (scanner : Scanner) :
    text positions scanner
      = ⟨String.join (scanner.readAll.tokens.map fun placed => placedLine positions placed ++ "\n"),
          scanner.readAll.error?, scanner.readAll.events, scanner.readAll.scanner⟩ := by
  rw [text, lines_eq]

/-- The output of the text dump, character by character. -/
theorem toList_output_text (positions : Bool) (scanner : Scanner) :
    (text positions scanner).output.toList
      = (scanner.readAll.tokens.map fun placed => (placedLine positions placed).toList).flatMap
          (· ++ ['\n']) := by
  rw [text_eq, String.toList_join, List.flatMap_map, List.flatMap_map]
  simp

/-- **The places can be cut off.**  Behind the first tab of each line the dump with places
is the dump without them. -/
theorem output_text_false (scanner : Scanner) :
    (text false scanner).output.toList
      = ['\n'].intercalate ((splitLines (text true scanner).output.toList).map behindTab) := by
  -- no token spreads over several lines, so splitting gives the lines of the tokens
  have hfree : ∀ line ∈ scanner.readAll.tokens.map fun placed => (placedLine true placed).toList,
      '\n' ∉ line := by
    intro line hinside
    obtain ⟨placed, hread, rfl⟩ := List.mem_map.mp hinside
    exact lineFeed_not_mem_placedLine (Scanner.isScanned_of_mem_readAll hread)
  rw [toList_output_text true, splitLines_flatMap hfree, List.map_append, List.map_map]
  have hplain : behindTab ∘ (fun placed => (placedLine true placed).toList)
      = fun placed => (placedLine false placed).toList := funext behindTab_placedLine
  -- the empty line behind the last line feed stays empty
  have hlast : [[]].map behindTab = [[]] := rfl
  rw [hplain, hlast, intercalate_concat_nil, toList_output_text]

/-! ## §5 The JSON dump -/

/-- The document is written when the whole text has been read. -/
theorem output_json_of_none {positions : Bool} {scanner : Scanner}
    (hcomplete : scanner.readAll.error? = none) :
    (json positions scanner).output
      = Json.indented (scanner.readAll.tokens.map (record positions)) ++ "\n" := by
  simp only [json, hcomplete]

/-- Nothing is written of a text with an error. -/
theorem output_json_of_some {positions : Bool} {scanner : Scanner} {error : LexicalError}
    (hfailed : scanner.readAll.error? = some error) : (json positions scanner).output = "" := by
  simp only [json, hfailed]

/-! ## §6 Dumps of a program -/

/-- **Both dumps agree with the scan.**  The text dump has one line for each token of the
reading, with its place in front if asked, and the places can be cut off.  If the program
can be scanned, the tokens are those of the scan, with the end of input once and last; both
dumps succeed and leave the scanner at the last byte.  If not, both fail with the error of
the scan and leave the scanner on its character; the lines of the tokens before it are
written, but nothing of the document. -/
theorem dump_of_scan (source : String) (positions : Bool) :
    (text positions (.start source.toList)).output
        = String.join ((readProgram source).tokens.map fun placed =>
            placedLine positions placed ++ "\n") ∧
    (∀ placed, placedLine false placed = line placed.token none ∧
      placedLine true placed = naturalText placed.span.line ++ ":" ++
        naturalText placed.span.column ++ "\t" ++ line placed.token none) ∧
    (text false (.start source.toList)).output.toList
      = ['\n'].intercalate
          ((splitLines (text true (.start source.toList)).output.toList).map behindTab) ∧
    let reading := readProgram source
    let text := text positions (.start source.toList)
    let json := json positions (.start source.toList)
    match scan source with
    | .ok tokens =>
      reading.tokens.map PlacedToken.token = tokens ∧
      (∃ before, (∀ token ∈ before, token.kind ≠ .endOfInput) ∧
        tokens = before ++ [.endOfInput]) ∧
      text.error? = none ∧ json.error? = none ∧
      json.output = Json.indented (reading.tokens.map (record positions)) ++ "\n" ∧
      text.scanner.position = byteLength source.toList ∧
      json.scanner.position = byteLength source.toList
    | .error error =>
      (∀ placed ∈ reading.tokens, placed.token.kind ≠ .endOfInput) ∧
      text.error? = some error ∧ json.error? = some error ∧ json.output = "" ∧
      text.scanner.position = error.span.start ∧
      text.scanner.cursor.current? = some error.character ∧
      json.scanner.position = error.span.start ∧
      json.scanner.cursor.current? = some error.character := by
  refine ⟨congrArg output (text_eq positions _), fun _ => ⟨rfl, rfl⟩, output_text_false _, ?_⟩
  intro reading text json
  -- the JSON dump is a reading by definition, the text dump by `text_eq`
  have hsame : text = ⟨_, reading.error?, reading.events, reading.scanner⟩ := text_eq positions _
  have hplace := readProgram_scanner source
  obtain ⟨before, hdenoted, htokens⟩ := Scanner.tokens_readAll (.start source.toList)
  -- lexemes denote no end of input
  have hothers : ∀ token ∈ before, token.kind ≠ .endOfInput := by
    intro token hinside
    obtain ⟨lexeme, hdenotes⟩ := hdenoted token hinside
    exact hdenotes.kind_ne_endOfInput
  rw [hsame]
  -- a scan succeeds just if its reading has no error; that decides what follows the tokens
  cases houtcome : scan source with
  | ok found =>
    obtain ⟨hcomplete, rfl⟩ := Reading.of_outcome_ok houtcome
    have hcomplete' : (Scanner.start source.toList).readAll.error? = none := hcomplete
    rw [hcomplete] at hplace
    rw [hcomplete'] at htokens
    exact ⟨rfl, ⟨before, hothers, htokens⟩, hcomplete, hcomplete, output_json_of_none hcomplete,
      hplace, hplace⟩
  | error error =>
    have hfailed := Reading.of_outcome_error houtcome
    have hfailed' : (Scanner.start source.toList).readAll.error? = some error := hfailed
    rw [hfailed] at hplace
    rw [hfailed', Option.isNone_some, if_neg Bool.false_ne_true, List.append_nil] at htokens
    -- where the reading failed, all of its tokens come from lexemes
    refine ⟨?_, hfailed, hfailed, output_json_of_some hfailed, hplace.2, hplace.1, hplace.2,
      hplace.1⟩
    intro placed hinside
    apply hothers
    rw [← htokens]
    exact List.mem_map_of_mem hinside

end TokenDump

end MiniPascal
