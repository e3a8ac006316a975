import MiniPascal.Proofs.Dump.Writers
import MiniPascal.Proofs.Json.Numbers
import MiniPascal.Proofs.Json.Parsing
import MiniPascal.Proofs.Token.WellFormed

/-!
# Reading Tokens Back from Lines

The lines of a dump quote nothing: a name, a number and a missing value all stand behind the
same tab.  They can be told apart all the same, as the kind says how the value was written, and
a scanned value has no tab and no line feed in it.

- `readTokens_text`: a reader of dumps finds the tokens of a reading again;
- `readPlaces_text`: with places, it finds the places too;
- `text_unambiguous`: so programs with the same dump have the same tokens.
-/

namespace MiniPascal

open Grammar

/-! ## §1 Values -/

/-- The value that a text stands for on a line of some kind. -/
def TokenValue.ofText? (kind : TokenKind) (text : List Char) : Option TokenValue :=
  match kind with
  | .endOfInput => none
  | .integerLiteral => (Json.numeral? text).map fun (numeral, _) => .integer numeral.integer
  | .realLiteral => (Json.numeral? text).bind fun (numeral, _) => numeral.real?.map .real
  | _ => some (.text (String.ofList text))

namespace Token

/-- A whole number is read from its digits. -/
theorem ofText?_integer (value : Int) :
    TokenValue.ofText? .integerLiteral (integerText value).toList = some (.integer value) := by
  obtain ⟨numeral, hnumeral, -, hsame⟩ := Json.integerText_reads value
  rw [TokenValue.ofText?, Json.numeral?_of_isNumeral hnumeral, ← hsame]
  rfl

/-- **A finite real number is determined by its plain text**, its sign included. -/
theorem ofText?_real {x : Binary64} (hfinite : x.isFinite = true) :
    TokenValue.ofText? .realLiteral x.plainText.toList = some (.real x) := by
  have hunmarked : plainLayout.positiveMark = "+" ∨ plainLayout.positiveMark = "" := .inr rfl
  obtain ⟨numeral, hnumeral, -, hsame⟩ := Json.finite_reads hunmarked hfinite
  -- the plain text is a numeral of the document format, where the shortest digits are read back
  rw [Binary64.plainText_eq_finite hfinite, TokenValue.ofText?, Json.numeral?_of_isNumeral hnumeral]
  exact congrArg (Option.map TokenValue.real) hsame

/-- On the lines of the other kinds the text itself is the value. -/
theorem ofText?_spelling {kind : TokenKind} (hpresent : kind ≠ .endOfInput)
    (hnoInteger : kind ≠ .integerLiteral) (hnoReal : kind ≠ .realLiteral) (spelling : String) :
    TokenValue.ofText? kind spelling.toList = some (.text spelling) := by
  unfold TokenValue.ofText?
  split
  · exact absurd rfl hpresent
  · exact absurd rfl hnoInteger
  · exact absurd rfl hnoReal
  · rw [String.ofList_toList]

/-- **The kind tells how to read the value** of a scanned token. -/
theorem ofText?_valueText {token : Token}
    (hscanned : token.IsScanned) :
    TokenValue.ofText? token.kind token.valueText.toList = token.value := by
  rcases hscanned with rfl | ⟨lexeme, hdenotes⟩
  · rfl
  -- numbers are read from their digits, and everything else stands for itself
  cases hdenotes with
  | integer => exact ofText?_integer _
  | @real whole fraction => exact ofText?_real (realValue_finite whole fraction).1
  | @reserved _ _ word hknown =>
    obtain ⟨-, -, hpresent, -, -, hnoInteger, hnoReal, -⟩ := kind_of_reservedWord? hknown
    exact ofText?_spelling hpresent hnoInteger hnoReal word
  | name => exact ofText?_spelling (by decide : TokenKind.identifier ≠ _) nofun nofun _
  | assign => exact ofText?_spelling (by decide : TokenKind.assign ≠ _) nofun nofun ":="
  | mark _ hsame =>
    obtain ⟨-, hpresent, -, -, hnoInteger, hnoReal⟩ := kind_of_symbol? hsame
    exact ofText?_spelling hpresent hnoInteger hnoReal _

/-! ## §2 Lines without places -/

/-- A token from the two fields of its line. -/
def ofLine? (line : List Char) : Option Token :=
  match pieces '\t' line with
  | [kind, value] =>
    (TokenKind.ofName? (String.ofList (kind.drop "type=".length))).map fun kind =>
      ⟨kind, TokenValue.ofText? kind (value.drop "value=".length)⟩
  | _ => none

/-- **A line has two fields**, one on each side of its only tab. -/
theorem pieces_line {token : Token}
    (hscanned : token.IsScanned) :
    pieces '\t' (TokenDump.line token none).toList
      = ["type=".toList ++ token.kind.name.toList, "value=".toList ++ token.valueText.toList] := by
  -- the tab between the fields is the only one
  have hkind : '\t' ∉ "type=".toList ++ token.kind.name.toList := by
    cases token.kind <;> decide
  have hvalue : '\t' ∉ "value=".toList ++ token.valueText.toList := by
    rw [List.mem_append, not_or]
    exact ⟨by decide, not_mem_valueText rfl hscanned⟩
  have htab : "\tvalue=".toList = '\t' :: "value=".toList := rfl
  rw [TokenDump.toList_line, htab, List.append_assoc, List.cons_append, pieces_append_separator,
    pieces_of_not_mem hkind, pieces_of_not_mem hvalue]
  rfl

/-- **A token is read back from its line.** -/
theorem ofLine?_line {token : Token}
    (hscanned : token.IsScanned) :
    ofLine? (TokenDump.line token none).toList = some token := by
  have hname : ("type=".toList ++ token.kind.name.toList).drop "type=".length
      = token.kind.name.toList := List.drop_left
  have hvalue : ("value=".toList ++ token.valueText.toList).drop "value=".length
      = token.valueText.toList := List.drop_left
  -- the kind is looked up first, as it says how the value is read
  rw [ofLine?, pieces_line hscanned]
  dsimp only
  rw [hname, hvalue, String.ofList_toList, TokenKind.ofName?_name, Option.map_some,
    ofText?_valueText hscanned]

end Token

/-! ## §3 Lines with places -/

namespace TokenDump

/-- The line and the column that stand in front of a line. -/
def placeOfLine (line : List Char) : Nat × Nat :=
  let place := line.takeWhile (· ≠ '\t')
  (digitsValue (place.takeWhile (· ≠ ':')), digitsValue (place.dropWhile (· ≠ ':')).tail)

/-- **A place is read back** from its line. -/
theorem placeOfLine_placedLine (placed : PlacedToken) :
    placeOfLine (placedLine true placed).toList = (placed.span.line, placed.span.column) := by
  -- the tab ends the place, and the colon the line number in it
  have hvisible := forall_ne_of_not_mem (not_mem_place (c := '\t') rfl placed.span.line
    placed.span.column)
  have hnoColon : ':' ∉ decimal placed.span.line :=
    fun hinside => absurd (isDigit_of_mem_decimal _ _ hinside) (by decide)
  have hdigits := forall_ne_of_not_mem hnoColon
  have htab : ∀ more, ∀ c ∈ ('\t' :: more).head?, decide (c ≠ '\t') = false :=
    forall_head?_cons rfl
  have hcolon : ∀ more, ∀ c ∈ (':' :: more).head?, decide (c ≠ ':') = false :=
    forall_head?_cons rfl
  -- line and column are decimals on the two sides of the colon
  rw [placeOfLine, toList_placedLine, takeWhile_run hvisible (htab _),
    takeWhile_run hdigits (hcolon _), dropWhile_run hdigits (hcolon _), List.tail_cons,
    digitsValue_decimal, digitsValue_decimal]

/-! ## §4 Dumps -/

/-- **Reading tokens** from a dump without places, line by line. -/
def readTokens (output : String) : List (Option Token) :=
  (splitLines output.toList).dropLast.map Token.ofLine?

/-- The places in a dump. -/
def readPlaces (output : String) : List (Nat × Nat) :=
  (splitLines output.toList).dropLast.map placeOfLine

theorem lineFeed_not_mem_lines {positions : Bool} {scanner : Scanner} {line : List Char}
    (hinside : line ∈ scanner.readAll.tokens.map fun placed =>
      (placedLine positions placed).toList) : '\n' ∉ line := by
  obtain ⟨placed, hread, rfl⟩ := List.mem_map.mp hinside
  cases positions with
  | false => exact lineFeed_not_mem_line (Scanner.isScanned_of_mem_readAll hread)
  | true => exact lineFeed_not_mem_placedLine (Scanner.isScanned_of_mem_readAll hread)

/-- The lines of a dump are found again. -/
theorem dropLast_splitLines_text (positions : Bool) (scanner : Scanner) :
    (splitLines (text positions scanner).output.toList).dropLast
      = scanner.readAll.tokens.map fun placed => (placedLine positions placed).toList := by
  -- splitting leaves an empty line behind the last line feed
  rw [toList_output_text, splitLines_flatMap fun _ => lineFeed_not_mem_lines,
    List.dropLast_concat]

/-- **Tokens are read back** from a dump without places, even if the text has an error. -/
theorem readTokens_text (scanner : Scanner) :
    readTokens (text false scanner).output
      = (scanner.readAll.tokens.map PlacedToken.token).map some := by
  rw [readTokens, dropLast_splitLines_text, List.map_map, List.map_map]
  apply List.map_congr_left
  intro placed hread
  exact Token.ofLine?_line (Scanner.isScanned_of_mem_readAll hread)

/-- **Places are read back** from a dump with places. -/
theorem readPlaces_text (scanner : Scanner) :
    readPlaces (text true scanner).output
      = scanner.readAll.tokens.map fun placed => (placed.span.line, placed.span.column) := by
  rw [readPlaces, dropLast_splitLines_text, List.map_map]
  exact List.map_congr_left fun placed _ => placeOfLine_placedLine placed

section Injective

variable {left right : Scanner}

theorem tokens_of_output_eq (hsame : (text false left).output = (text false right).output) :
    left.readAll.tokens.map PlacedToken.token = right.readAll.tokens.map PlacedToken.token := by
  apply List.map_injective_iff.mpr (Option.some_injective Token)
  -- what is read back depends on the output alone
  rw [← readTokens_text, ← readTokens_text, hsame]

/-- Without the places the dumps are the same as well. -/
theorem output_text_false_congr (hsame : (text true left).output = (text true right).output) :
    (text false left).output = (text false right).output := by
  apply String.toList_injective
  rw [output_text_false, output_text_false, hsame]

theorem places_of_output_eq (hsame : (text true left).output = (text true right).output) :
    left.readAll.tokens.map (fun placed => (placed.span.line, placed.span.column))
      = right.readAll.tokens.map fun placed => (placed.span.line, placed.span.column) := by
  rw [← readPlaces_text, ← readPlaces_text, hsame]

end Injective

/-- **The form of a line**: the place with a tab if asked, then the kind, a tab, and a value
without tabs and line feeds. -/
def IsLineOf (positions : Bool) (placed : PlacedToken) (line : List Char) : Prop :=
  ∃ value, '\t' ∉ value ∧ '\n' ∉ value ∧ value = placed.token.valueText.toList ∧
    line = (if positions then
        decimal placed.span.line ++ ':' :: decimal placed.span.column ++ ['\t'] else []) ++
      "type=".toList ++ placed.token.kind.name.toList ++ "\tvalue=".toList ++ value

theorem isLineOf_placedLine (positions : Bool) {placed : PlacedToken}
    (hscanned : placed.token.IsScanned) :
    IsLineOf positions placed (placedLine positions placed).toList := by
  refine ⟨_, Token.not_mem_valueText rfl hscanned, Token.not_mem_valueText rfl hscanned, rfl, ?_⟩
  have hplain : (placedLine false placed).toList = _ := toList_line placed.token
  cases positions with
  | false => exact hplain
  | true =>
    rw [toList_placedLine, hplain]
    simp

/-- **Dumps are unambiguous.**  The dump of a program that can be scanned has one line for each
of its tokens, with nothing but the value behind the last tab.  Programs with the same dump have
the same tokens, and with the same places if the places are written. -/
theorem text_unambiguous :
    (∀ (source : String) (positions : Bool) (tokens : List Token), scan source = .ok tokens →
      (readProgram source).tokens.map PlacedToken.token = tokens ∧
      ∃ lines : List (List Char),
        (text positions (.start source.toList)).output.toList = lines.flatMap (· ++ ['\n']) ∧
        lines.length = tokens.length ∧ (∀ line ∈ lines, '\n' ∉ line) ∧
        List.Forall₂ (IsLineOf positions) (readProgram source).tokens lines) ∧
    (∀ (left right : String) (tokens tokens' : List Token),
      scan left = .ok tokens → scan right = .ok tokens' →
      (text false (.start left.toList)).output = (text false (.start right.toList)).output →
      tokens = tokens') ∧
    (∀ (left right : String) (tokens tokens' : List Token),
      scan left = .ok tokens → scan right = .ok tokens' →
      (text true (.start left.toList)).output = (text true (.start right.toList)).output →
      tokens = tokens' ∧
      (readProgram left).tokens.map (fun placed => (placed.span.line, placed.span.column))
        = (readProgram right).tokens.map fun placed =>
            (placed.span.line, placed.span.column)) := by
  refine ⟨?_, ?_, ?_⟩
  · intro source positions tokens houtcome
    obtain ⟨-, rfl⟩ := Reading.of_outcome_ok houtcome
    -- the lines are those of the tokens, so they are as many and have the form of a line
    refine ⟨rfl, _, toList_output_text positions _, ?_, fun _ => lineFeed_not_mem_lines, ?_⟩
    · rw [List.length_map, List.length_map]
      rfl
    · rw [List.forall₂_map_right_iff]
      apply List.forall₂_same.mpr
      intro placed hread
      exact isLineOf_placedLine positions (Scanner.isScanned_of_mem_readAll hread)
  · intro left right tokens tokens' houtcome houtcome' hsame
    obtain ⟨-, rfl⟩ := Reading.of_outcome_ok houtcome
    obtain ⟨-, rfl⟩ := Reading.of_outcome_ok houtcome'
    exact tokens_of_output_eq hsame
  · intro left right tokens tokens' houtcome houtcome' hsame
    obtain ⟨-, rfl⟩ := Reading.of_outcome_ok houtcome
    obtain ⟨-, rfl⟩ := Reading.of_outcome_ok houtcome'
    -- behind the places the lines are those of the plain dumps
    exact ⟨tokens_of_output_eq (output_text_false_congr hsame), places_of_output_eq hsame⟩

/-- Names that look like a missing value and like numbers, and a number written in two ways. -/
theorem text_unambiguous_names :
    let left := "None inf e5 1.50"
    let right := "None inf e5 01.5"
    let spaced := "None  inf  e5  1.5"
    let tokens : List Token := [.identifier "None", .identifier "inf", .identifier "e5",
      .real ⟨0x3FF8000000000000⟩, .endOfInput]
    (scan left = .ok tokens ∧
      ∃ lines : List (List Char),
        (text true (.start left.toList)).output.toList = lines.flatMap (· ++ ['\n']) ∧
        lines.length = 5) ∧
    (scan spaced = .ok tokens ∧
      (text false (.start left.toList)).output = (text false (.start spaced.toList)).output ∧
      scan left = scan spaced) ∧
    (scan right = .ok tokens ∧
      (text true (.start left.toList)).output = (text true (.start right.toList)).output ∧
      (readProgram left).tokens.map (fun placed => (placed.span.line, placed.span.column))
        = (readProgram right).tokens.map fun placed =>
            (placed.span.line, placed.span.column)) := by
  intro left right spaced tokens
  have hscanned : scan left = .ok tokens := by decide +kernel
  have hscannedSpaced : scan spaced = .ok tokens := by decide +kernel
  have hscannedRight : scan right = .ok tokens := by decide +kernel
  have hplain : (text false (.start left.toList)).output
      = (text false (.start spaced.toList)).output := by
    decide +kernel
  have hplaced : (text true (.start left.toList)).output
      = (text true (.start right.toList)).output := by
    decide +kernel
  -- the parts of the general statement, each at two of the three programs
  obtain ⟨-, lines, houtput, hlength, -⟩ := text_unambiguous.1 left true tokens hscanned
  have hsame := text_unambiguous.2.1 left spaced tokens tokens hscanned hscannedSpaced hplain
  have hplaces := text_unambiguous.2.2 left right tokens tokens hscanned hscannedRight hplaced
  refine ⟨⟨hscanned, lines, houtput, hlength⟩, ⟨hscannedSpaced, hplain, ?_⟩, hscannedRight,
    hplaced, hplaces.2⟩
  rw [hscanned, hsame, hscannedSpaced]

end TokenDump

end MiniPascal
