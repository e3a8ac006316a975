import MiniPascal.Proofs.Dump.Writers
import MiniPascal.Proofs.Json.Writing
import Mathlib.Data.UInt

/-!
# Reading Tokens Back from JSON

One reader for all documents of tokens: it parses a text, looks up the kind and the value in
each of the objects, and takes no notice of what else an object has.  It finds the tokens again
in their compact document, whatever their kinds and values are, and in the document that a dump
of a program writes, with places and without (`decode_of_tokens`).
-/

namespace MiniPascal

open Grammar

/-! ## §1 The reader -/

/-- The value that a scalar stands for. -/
def TokenValue.ofScalar? : Json.Scalar → Option TokenValue
  | .null => none
  | .string spelling => some (.text spelling)
  | .integer value => some (.integer value)
  | .real value => some (.real value)

namespace Token

def ofRecord? (record : Json.Record) : Option Token := do
  let name ← record.lookup "type"
  let value ← record.lookup "value"
  match name with
  | .string name => (TokenKind.ofName? name).map fun kind => ⟨kind, TokenValue.ofScalar? value⟩
  | _ => none

/-- **Reading tokens** from a document. -/
def decode (text : String) : Option (List Token) :=
  (Json.readDocument text).bind fun document => document.mapM ofRecord?

/-! ## §2 Records of tokens -/

theorem ofScalar?_valueScalar (token : Token) :
    TokenValue.ofScalar? token.valueScalar = token.value := by
  obtain ⟨kind, value⟩ := token
  cases value with
  | none => rfl
  | some value => cases value <;> rfl

/-- A token is found in its record, whatever follows there. -/
theorem ofRecord?_toRecord_append (token : Token) (more : Json.Record) :
    ofRecord? (token.toRecord ++ more) = some token := by
  -- the two entries stand at the front of the record, so nothing that follows is looked at
  have htype : (token.toRecord ++ more).lookup "type" = some (.string token.kind.name) := rfl
  have hvalue : (token.toRecord ++ more).lookup "value" = some token.valueScalar := rfl
  simp [ofRecord?, htype, hvalue, TokenKind.ofName?_name, ofScalar?_valueScalar]

/-- Records that begin with those of tokens are read as the tokens. -/
theorem mapM_ofRecord? {α : Type} (token : α → Token) (more : α → Json.Record)
    (entries : List α) :
    (entries.map fun entry => (token entry).toRecord ++ more entry).mapM ofRecord?
      = some (entries.map token) := by
  have hread : ofRecord? ∘ (fun entry => (token entry).toRecord ++ more entry)
      = fun entry => pure (token entry) := by
    funext entry
    exact ofRecord?_toRecord_append (token entry) (more entry)
  rw [List.mapM_map, hread, List.mapM_pure]
  rfl

/-- Tokens whose value, if it is a real number, is neither infinite nor undefined. -/
def IsFinite (token : Token) : Prop :=
  ∀ x, token.value = some (.real x) → x.isFinite = true

theorem IsFinite.valueScalar {token : Token} (hfinite : token.IsFinite) :
    token.valueScalar.IsFinite := by
  obtain ⟨kind, value⟩ := token
  cases value with
  | none => exact nofun
  | some value =>
    cases value with
    -- only a real value can fail to be finite
    | real x =>
      intro y hsame
      obtain rfl : x = y := Json.Scalar.real.inj hsame
      exact hfinite x rfl
    | _ => exact nofun

theorem IsFinite.toRecord {token : Token} (hfinite : token.IsFinite) :
    Json.Record.IsFinite token.toRecord := by
  rw [Token.toRecord, Json.Record.IsFinite, List.forall_mem_cons, List.forall_mem_singleton]
  exact ⟨nofun, hfinite.valueScalar⟩

/-! ## §3 Documents of tokens -/

theorem decode_of_standsFor {document : Json.Document} {text : String} {tokens : List Token}
    (hstands : Json.StandsFor Json.Value.document? document text.toList)
    (hread : document.mapM ofRecord? = some tokens) : decode text = some tokens := by
  rw [decode, Json.readDocument_of_standsFor hstands, Option.bind_some, hread]

section Compact

variable {tokens : List Token}

theorem standsFor_compact (hfinite : ∀ token ∈ tokens, token.IsFinite) :
    Json.StandsFor Json.Value.document? (tokens.map toRecord)
      (Json.compact (tokens.map toRecord)).toList := by
  apply Json.standsFor_compact
  rw [Json.Document.IsFinite, List.forall_mem_map]
  exact fun token hinside => (hfinite token hinside).toRecord

/-- **Tokens are read back from their compact document.** -/
theorem decode_compact (hfinite : ∀ token ∈ tokens, token.IsFinite) :
    decode (Json.compact (tokens.map toRecord)) = some tokens := by
  apply decode_of_standsFor (standsFor_compact hfinite)
  -- nothing follows the kind and the value in these records
  have hread := mapM_ofRecord? id (fun _ => []) tokens
  simpa using hread

end Compact

end Token

/-! ## §4 Documents of programs -/

/-- The literals of a program are finite, even those that are too large. -/
theorem Grammar.Denotes.isFinite {lexeme : List Char} {token : Token}
    (hdenotes : Denotes lexeme token) : token.IsFinite := by
  cases hdenotes with
  | @real whole fraction =>
    intro x hsame
    obtain rfl := TokenValue.real.inj (Option.some.inj hsame)
    exact (realValue_finite whole fraction).1
  | _ => exact nofun

theorem Scanner.isFinite_of_mem_readAll {scanner : Scanner} {placed : PlacedToken}
    (hread : placed ∈ scanner.readAll.tokens) : placed.token.IsFinite := by
  rcases isScanned_of_mem_readAll hread with hended | ⟨lexeme, hdenotes⟩
  · -- the end of input has no value at all
    rw [hended]
    exact nofun
  · exact hdenotes.isFinite

namespace TokenDump

theorem isFinite_record {positions : Bool} {placed : PlacedToken}
    (hfinite : placed.token.IsFinite) : Json.Record.IsFinite (record positions placed) := by
  rw [record, Json.Record.IsFinite, List.forall_mem_append]
  refine ⟨hfinite.toRecord, ?_⟩
  cases positions with
  | false => exact List.forall_mem_nil _
  -- the two places are whole numbers
  | true =>
    rw [if_pos rfl, List.forall_mem_cons, List.forall_mem_singleton]
    exact ⟨nofun, nofun⟩

theorem standsFor_indented (positions : Bool) (scanner : Scanner) :
    Json.StandsFor Json.Value.document? (scanner.readAll.tokens.map (record positions))
      (Json.indented (scanner.readAll.tokens.map (record positions))).toList := by
  apply Json.standsFor_indented
  rw [Json.Document.IsFinite, List.forall_mem_map]
  exact fun placed hinside => isFinite_record (Scanner.isFinite_of_mem_readAll hinside)

/-- **The dump of a program is read back**, and the places in it do not matter. -/
theorem decode_indented (positions : Bool) (scanner : Scanner) :
    Token.decode (Json.indented (scanner.readAll.tokens.map (record positions)))
      = some (scanner.readAll.tokens.map PlacedToken.token) := by
  apply Token.decode_of_standsFor (standsFor_indented positions scanner)
  exact Token.mapM_ofRecord? PlacedToken.token _ _

/-- **Documents of tokens lose nothing**, and one reader does for all of them. -/
theorem decode_of_tokens :
    (∀ tokens : List Token, (∀ token ∈ tokens, token.IsFinite) →
      (∃ value, Json.IsDocument value (Json.compact (tokens.map Token.toRecord)).toList) ∧
      Token.decode (Json.compact (tokens.map Token.toRecord)) = some tokens) ∧
    (∀ left right : List Token, (∀ token ∈ left, token.IsFinite) →
      (∀ token ∈ right, token.IsFinite) →
      Json.compact (left.map Token.toRecord) = Json.compact (right.map Token.toRecord) →
      left = right) ∧
    (∀ (source : String) (positions : Bool) (tokens : List Token), scan source = .ok tokens →
      ∃ text, (write .json positions (.start source.toList)).output = text ++ "\n" ∧
        Token.decode text = some tokens ∧
        (readProgram source).tokens.map PlacedToken.token = tokens ∧
        ∃ objects, Json.IsDocument (.array objects) text.toList ∧
          objects.mapM Json.Value.record?
            = some ((readProgram source).tokens.map fun placed =>
                [("type", .string placed.token.kind.name), ("value", placed.token.valueScalar)] ++
                  if positions then [("line", .integer placed.span.line),
                    ("column", .integer placed.span.column)] else [])) := by
  refine ⟨?_, ?_, ?_⟩
  · intro tokens hfinite
    obtain ⟨value, hdocument, -⟩ := Token.standsFor_compact hfinite
    exact ⟨⟨value, hdocument⟩, Token.decode_compact hfinite⟩
  · intro left right hfinite hfinite' hsame
    -- the reader has one result only for the text that both are written as
    have hread := Token.decode_compact hfinite
    rw [hsame, Token.decode_compact hfinite'] at hread
    exact (Option.some.inj hread).symm
  · intro source positions tokens houtcome
    obtain ⟨hcomplete, rfl⟩ := Reading.of_outcome_ok houtcome
    refine ⟨_, output_json_of_none hcomplete, decode_indented positions _, rfl, ?_⟩
    exact (standsFor_indented positions _).exists_array

/-- Tokens that no program has, with characters to escape, negative zero and the least integer
that fits. -/
def unusualTokens : List Token :=
  [⟨.plus, some (.text "\"\\\n\x01é")⟩, ⟨.identifier, some (.real ⟨2 ^ 63⟩)⟩,
    .integer (-2 ^ 63), ⟨.integerLiteral, none⟩]

theorem decode_of_unusualTokens :
    (∀ token ∈ unusualTokens, token.IsFinite) ∧
    Token.decode (Json.compact (unusualTokens.map Token.toRecord)) = some unusualTokens ∧
    scan "12 1.5" = .ok [.integer 12, .real ⟨0x3FF8000000000000⟩, .endOfInput] ∧
    ∃ text, (write .json true (.start "12 1.5".toList)).output = text ++ "\n" ∧
      Token.decode text = some [.integer 12, .real ⟨0x3FF8000000000000⟩, .endOfInput] := by
  have hfinite : ∀ token ∈ unusualTokens, token.IsFinite := by
    have hzero : (⟨2 ^ 63⟩ : Binary64).isFinite = true := by decide +kernel
    simp [unusualTokens, Token.IsFinite, Token.integer, hzero]
  have hscanned : scan "12 1.5"
      = .ok [.integer 12, .real ⟨0x3FF8000000000000⟩, .endOfInput] := by
    decide +kernel
  obtain ⟨text, houtput, hread, -⟩ := decode_of_tokens.2.2 "12 1.5" true _ hscanned
  exact ⟨hfinite, (decode_of_tokens.1 _ hfinite).2, hscanned, text, houtput, hread⟩

end TokenDump

end MiniPascal
