import MiniPascal.Json.Document
import MiniPascal.Proofs.Json.Numbers
import MiniPascal.Proofs.Json.Parsing

/-!
# What Is Written Is Read Back

Documents are read by parsing them first.  A text in the compact or in the indented form is
well formed, and reading it gives the document that was written, as long as every real number
in it is finite.

- `isContent_escape`: escaped characters stand for themselves;
- `Scalar.standsFor_text`: a scalar is read back from its text;
- `standsFor_compact`, `standsFor_indented`: so are the documents, in both forms.
-/

namespace MiniPascal.Json

/-! ## §1 Reading documents -/

namespace Value

/-- A number is whole if it is written without a point and without a power of ten. -/
def scalar? : Value → Option Scalar
  | null => some .null
  | string text => some (.string text)
  | number numeral =>
    if numeral.isReal then numeral.real?.map .real else some (.integer numeral.integer)
  | _ => none

def field? (member : String × Value) : Option (String × Scalar) :=
  member.2.scalar?.map (member.1, ·)

def record? : Value → Option Record
  | object members => members.mapM field?
  | _ => none

def document? : Value → Option Document
  | array items => items.mapM record?
  | _ => none

end Value

/-- **Reading a document**: a parse, and then a look at the value. -/
def readDocument (text : String) : Option Document :=
  (parse? text).bind Value.document?

/-- A text, well formed, whose value is read as `x`. -/
def StandsFor {α : Type} (read? : Value → Option α) (x : α) (text : List Char) : Prop :=
  ∃ value, Writes (.element value) text ∧ read? value = some x

section StandsFor

variable {α : Type} {read? : Value → Option α} {x : α} {text : List Char}

@[simp]
theorem isSpaces_nil : IsSpaces [] :=
  List.forall_mem_nil _

@[simp]
theorem isSpaces_cons {c : Char} : IsSpaces (c :: text) ↔ isSpace c = true ∧ IsSpaces text :=
  List.forall_mem_cons

theorem Writes.isElement {value : Value} (hbare : Writes (.bare value) text) :
    Writes (.element value) text := by
  have hwritten := Writes.element isSpaces_nil hbare isSpaces_nil
  rwa [List.append_nil] at hwritten

theorem IsSpaces.append {left right : List Char} (hspaces : IsSpaces left)
    (hspaces' : IsSpaces right) : IsSpaces (left ++ right) :=
  List.forall_mem_append.mpr ⟨hspaces, hspaces'⟩

/-- There may be any spaces around a text. -/
theorem StandsFor.padded (hstands : StandsFor read? x text) {before after : List Char}
    (hspaces : IsSpaces before) (hspaces' : IsSpaces after) :
    StandsFor read? x (before ++ (text ++ after)) := by
  obtain ⟨value, hwrites, hread⟩ := hstands
  refine ⟨value, ?_, hread⟩
  cases hwrites with
  -- the spaces of the text itself and the ones around it become one stretch on each side
  | element hspaces₁ hbare hspaces₂ =>
    have hwritten := Writes.element (hspaces.append hspaces₁) hbare (hspaces₂.append hspaces')
    simpa using hwritten

/-- Only arrays are read as documents. -/
theorem StandsFor.exists_array {document : Document}
    (hstands : StandsFor Value.document? document text) :
    ∃ items, IsDocument (.array items) text ∧ items.mapM Value.record? = some document := by
  obtain ⟨value, hwrites, hread⟩ := hstands
  cases value with
  | array items => exact ⟨items, hwrites, hread⟩
  | _ => cases hread

theorem readDocument_of_standsFor {document : Document} {text : String}
    (hstands : StandsFor Value.document? document text.toList) :
    readDocument text = some document := by
  obtain ⟨value, hdocument, hread⟩ := hstands
  rw [readDocument, parse?_of_isDocument hdocument, Option.bind_some, hread]

end StandsFor

/-! ## §2 Strings -/

theorem hexValue?_hexDigit {d : Nat} (hsmall : d < 16) : hexValue? (hexDigit d) = some d := by
  decide +revert

/-- Two digits are enough for the control characters. -/
theorem codePoint?_hexDigits {c : Char} (hcontrol : c.toNat < 0x20) :
    codePoint? ['0', '0', hexDigit (c.toNat / 16), hexDigit (c.toNat % 16)] = some c := by
  have hhigh := hexValue?_hexDigit (d := c.toNat / 16) (by omega)
  have hlow := hexValue?_hexDigit (d := c.toNat % 16) (Nat.mod_lt _ (by decide))
  have hzero : hexValue? '0' = some 0 := rfl
  have hnumber : 16 * (c.toNat / 16) + c.toNat % 16 = c.toNat := Nat.div_add_mod _ _
  have hvalid : c.toNat.isValidChar := c.valid
  simp [codePoint?, hexNumber?, hhigh, hlow, hzero, hnumber, hvalid]

/-- **An escaped character stands for itself.** -/
theorem isCharacter_escape (c : Char) : IsCharacter c (escape c) := by
  unfold escape
  split_ifs with hquote hbackslash hbackspace hformFeed hlineFeed hcarriageReturn htab hcontrol
  · exact .short (by rw [hquote]; rfl)
  · exact .short (by rw [hbackslash]; rfl)
  · exact .short (by rw [hbackspace]; rfl)
  · exact .short (by rw [hformFeed]; rfl)
  · exact .short (by rw [hlineFeed]; rfl)
  · exact .short (by rw [hcarriageReturn]; rfl)
  · exact .short (by rw [htab]; rfl)
  · -- the short escapes cover some control characters, and four digits all the others
    exact .codePoint (codePoint?_hexDigits hcontrol)
  · exact .plain (Nat.le_of_not_lt hcontrol) hquote hbackslash

theorem isContent_escape (chars : List Char) : IsContent chars (chars.flatMap escape) := by
  induction chars with
  | nil => exact .nil
  | cons c chars ih => exact .cons (isCharacter_escape c) ih

theorem toList_quote (text : String) :
    (quote text).toList = '"' :: (text.toList.flatMap escape ++ ['"']) := by
  rw [quote, String.toList_ofList]

/-! ## §3 Scalars -/

/-- All real numbers but the infinite and the undefined ones. -/
def Scalar.IsFinite (scalar : Scalar) : Prop :=
  ∀ x, scalar = .real x → x.isFinite = true

/-- **Scalars are read back.**  The numbers tell by their text whether they are whole. -/
theorem Scalar.standsFor_text {scalar : Scalar} (hfinite : scalar.IsFinite) :
    StandsFor Value.scalar? scalar scalar.text.toList := by
  cases scalar with
  | null => exact ⟨.null, Writes.nullWord.isElement, rfl⟩
  | string text =>
    refine ⟨.string text, ?_, rfl⟩
    have hwritten := Writes.string (isContent_escape text.toList)
    rw [String.ofList_toList, ← toList_quote] at hwritten
    exact hwritten.isElement
  | integer value =>
    -- no whole number is written with a point or a power, so it is not taken for a real one
    obtain ⟨numeral, hnumeral, hwhole, hread⟩ := integerText_reads value
    refine ⟨.number numeral, (Writes.number hnumeral).isElement, ?_⟩
    rw [Value.scalar?, hwhole, if_neg Bool.false_ne_true, hread]
  | real x =>
    -- and every finite real number is written with one of the two
    have hisFinite := hfinite x rfl
    obtain ⟨numeral, hnumeral, hreal, hread⟩ := realText_reads hisFinite
    refine ⟨.number numeral, ?_, ?_⟩
    · rw [Scalar.text, if_pos hisFinite]
      exact (Writes.number hnumeral).isElement
    · rw [Value.scalar?, hreal, if_pos rfl, hread, Option.map_some]

/-! ## §4 Lists in both forms

Behind the opening bracket and behind every comma stands the same gap, and another one before
the closing bracket.  In the compact form both are empty.
-/

/-- A text that may stand as an item of an array, or as a member of an object. -/
structure IsEntry {β : Type} (phrase : List β → Phrase) (part : β) (text : List Char) : Prop where
  last : Writes (phrase [part]) text
  other : ∀ {parts rest}, Writes (phrase parts) rest →
    Writes (phrase (part :: parts)) (text ++ ',' :: rest)

theorem Writes.isEntry {value : Value} {text : List Char} (hwrites : Writes (.element value) text) :
    IsEntry .items value text :=
  ⟨.lastItem hwrites, .item hwrites⟩

section Lists

variable {α β : Type} {phrase : List β → Phrase} {read? : β → Option α}
  {text : α → List Char} {gap ending : List Char}

/-- **Lists are read back** if each of their entries is, whatever spaces stand around it. -/
theorem exists_writes_intercalate (hspaces : IsSpaces gap) (hspaces' : IsSpaces ending)
    {entries : List α} (hnonempty : entries ≠ [])
    (heach : ∀ entry ∈ entries, ∀ {before after}, IsSpaces before → IsSpaces after →
      ∃ part, IsEntry phrase part (before ++ (text entry ++ after)) ∧ read? part = some entry) :
    ∃ parts, Writes (phrase parts)
        (gap ++ ((',' :: gap).intercalate (entries.map text) ++ ending)) ∧
      parts.mapM read? = some entries := by
  induction entries with
  | nil => exact absurd rfl hnonempty
  | cons entry entries ih =>
    obtain ⟨hfirst, hothers⟩ := List.forall_mem_cons.mp heach
    -- the ending stands behind the last entry, a comma behind every other
    cases entries with
    | nil =>
      obtain ⟨part, hentry, hread⟩ := hfirst hspaces hspaces'
      refine ⟨[part], ?_, by simp [hread]⟩
      simpa using hentry.last
    | cons entry' entries =>
      obtain ⟨parts, hwrites, hreadMore⟩ := ih (List.cons_ne_nil _ _) hothers
      obtain ⟨part, hentry, hread⟩ := hfirst hspaces isSpaces_nil
      refine ⟨part :: parts, ?_, by simp [hread, hreadMore]⟩
      simpa using hentry.other hwrites

end Lists

/-! ## §5 Records and documents -/

section Documents

variable {gap ending : List Char} {record : Record} {document : Document}

theorem isEntry_member {name : String} {value : Value} {key text : List Char}
    (hname : IsName name key) (hwrites : Writes (.element value) text) :
    IsEntry .members (name, value) (key ++ text) where
  last := .lastMember hname hwrites
  other hmore := by
    rw [List.append_assoc]
    exact .member hname hwrites hmore

/-- A field is a member, with any spaces around it and behind the colon. -/
theorem exists_isEntry_field {field : String × Scalar} (hfinite : field.2.IsFinite)
    {before between after : List Char} (hspaces : IsSpaces before) (hspaces' : IsSpaces between)
    (hspaces'' : IsSpaces after) :
    ∃ member, IsEntry .members member
        (before ++ ((quote field.1).toList ++ ':' :: (between ++ (field.2.text.toList ++ after)))) ∧
      Value.field? member = some field := by
  obtain ⟨value, hwrites, hread⟩ := (Scalar.standsFor_text hfinite).padded hspaces' hspaces''
  -- no space stands between a name and its colon; what is behind the colon belongs to the value
  have hname := IsName.mk hspaces (isContent_escape field.1.toList) isSpaces_nil
  rw [String.ofList_toList] at hname
  refine ⟨(field.1, value), ?_, ?_⟩
  · have hentry := isEntry_member hname hwrites
    rw [toList_quote]
    simpa using hentry
  · rw [Value.field?, hread, Option.map_some]

/-- A record of a form that is given by its fields and gaps. -/
theorem standsFor_object {text : String × Scalar → List Char} (hspaces : IsSpaces gap)
    (hspaces' : IsSpaces ending) (hnonempty : record ≠ [])
    (heach : ∀ field ∈ record, ∀ {before after}, IsSpaces before → IsSpaces after →
      ∃ member, IsEntry .members member (before ++ (text field ++ after)) ∧
        Value.field? member = some field) :
    StandsFor Value.record? record
      ('\x7b' :: (gap ++ ((',' :: gap).intercalate (record.map text) ++ ending) ++ ['\x7d'])) := by
  obtain ⟨members, hwrites, hread⟩ := exists_writes_intercalate hspaces hspaces' hnonempty heach
  exact ⟨.object members, (Writes.object hwrites).isElement, hread⟩

theorem standsFor_emptyObject : StandsFor Value.record? [] ['\x7b', '\x7d'] :=
  ⟨.object [], (Writes.emptyObject isSpaces_nil).isElement, rfl⟩

/-- A document of a form that is given by its records and gaps. -/
theorem standsFor_array {text : Record → List Char} (hspaces : IsSpaces gap)
    (hspaces' : IsSpaces ending) (hnonempty : document ≠ [])
    (heach : ∀ record ∈ document, StandsFor Value.record? record (text record)) :
    StandsFor Value.document? document
      ('[' :: (gap ++ ((',' :: gap).intercalate (document.map text) ++ ending) ++ [']'])) := by
  have hentries : ∀ record ∈ document, ∀ {before after}, IsSpaces before → IsSpaces after →
      ∃ item, IsEntry .items item (before ++ (text record ++ after)) ∧
        Value.record? item = some record := by
    intro record hinside before after hspaces hspaces'
    obtain ⟨value, hwrites, hread⟩ := (heach record hinside).padded hspaces hspaces'
    exact ⟨value, hwrites.isEntry, hread⟩
  obtain ⟨items, hwrites, hread⟩ := exists_writes_intercalate hspaces hspaces' hnonempty hentries
  exact ⟨.array items, (Writes.array hwrites).isElement, hread⟩

theorem standsFor_emptyArray : StandsFor Value.document? [] ['[', ']'] :=
  ⟨.array [], (Writes.emptyArray isSpaces_nil).isElement, rfl⟩

def Record.IsFinite (record : Record) : Prop :=
  ∀ field ∈ record, field.2.IsFinite

def Document.IsFinite (document : Document) : Prop :=
  ∀ record ∈ document, Record.IsFinite record

/-! ## §6 The compact form -/

theorem standsFor_compactRecord (hfinite : record.IsFinite) :
    StandsFor Value.record? record (compactRecord record).toList := by
  have htext : (compactRecord record).toList
      = '\x7b' :: ([','].intercalate (record.map (compactField · |>.toList)) ++ ['\x7d']) := by
    simp [compactRecord, Function.comp_def]
  rw [htext]
  -- the grammar has a rule of its own for brackets with nothing in them
  by_cases hnonempty : record = []
  · rw [hnonempty]
    exact standsFor_emptyObject
  · have heach : ∀ field ∈ record, ∀ {before after}, IsSpaces before → IsSpaces after →
        ∃ member, IsEntry .members member (before ++ ((compactField field).toList ++ after)) ∧
          Value.field? member = some field := by
      intro field hinside before after hspaces hspaces'
      have hwritten := exists_isEntry_field (hfinite field hinside) hspaces isSpaces_nil hspaces'
      simpa [compactField] using hwritten
    simpa using standsFor_object isSpaces_nil isSpaces_nil hnonempty heach

/-- **The compact form is read back.** -/
theorem standsFor_compact (hfinite : document.IsFinite) :
    StandsFor Value.document? document (compact document).toList := by
  have htext : (compact document).toList
      = '[' :: ([','].intercalate (document.map (compactRecord · |>.toList)) ++ [']']) := by
    simp [compact, Function.comp_def]
  rw [htext]
  by_cases hnonempty : document = []
  · rw [hnonempty]
    exact standsFor_emptyArray
  · have heach : ∀ record ∈ document,
        StandsFor Value.record? record (compactRecord record).toList :=
      fun record hinside => standsFor_compactRecord (hfinite record hinside)
    simpa using standsFor_array isSpaces_nil isSpaces_nil hnonempty heach

/-! ## §7 The indented form -/

theorem standsFor_indentedRecord (hfinite : record.IsFinite) :
    StandsFor Value.record? record (indentedRecord record).toList := by
  have hcolumns : IsSpaces [' ', ' '] := by simp [isSpace]
  cases record with
  | nil => simpa [indentedRecord] using standsFor_emptyObject.padded hcolumns isSpaces_nil
  | cons field fields =>
    have heach : ∀ field' ∈ field :: fields, ∀ {before after}, IsSpaces before → IsSpaces after →
        ∃ member, IsEntry .members member (before ++ ((indentedField field').toList ++ after)) ∧
          Value.field? member = some field' := by
      intro field' hinside before after hspaces hspaces'
      -- the columns in front of the name count as spaces around the field
      have hfront : IsSpaces (before ++ [' ', ' ', ' ', ' ']) := hspaces.append (by simp [isSpace])
      have hblank : IsSpaces [' '] := by simp [isSpace]
      have hwritten := exists_isEntry_field (hfinite field' hinside) hfront hblank hspaces'
      simpa [indentedField] using hwritten
    have hgap : IsSpaces ['\n'] := by simp [isSpace]
    have hending : IsSpaces ['\n', ' ', ' '] := by simp [isSpace]
    have hwritten := standsFor_object hgap hending (List.cons_ne_nil field fields) heach
    simpa [indentedRecord, Function.comp_def] using hwritten.padded hcolumns isSpaces_nil

/-- **The indented form is read back.** -/
theorem standsFor_indented (hfinite : document.IsFinite) :
    StandsFor Value.document? document (indented document).toList := by
  cases document with
  | nil => simpa [indented] using standsFor_emptyArray
  | cons record records =>
    have heach : ∀ record' ∈ record :: records,
        StandsFor Value.record? record' (indentedRecord record').toList :=
      fun record' hinside => standsFor_indentedRecord (hfinite record' hinside)
    have hgap : IsSpaces ['\n'] := by simp [isSpace]
    have hwritten := standsFor_array hgap hgap (List.cons_ne_nil record records) heach
    simpa [indented, Function.comp_def] using hwritten

end Documents

end MiniPascal.Json
