import MiniPascal.Proofs.Json.Grammar
import MiniPascal.Proofs.Text.Stretches

/-!
# Parsing JSON

A parser for all of JSON, in the usual form: each function reads one phrase at the front of a
text and gives what is left of it.  A phrase nests no deeper and goes on no longer than its text
is long, which bounds the steps of the parser.

- `isRead_of_writes`: a phrase is read whole, whatever stands behind it that cannot belong to it;
- `parse?_of_isDocument`: a well-formed document is read as the value that it stands for;
- `value_unique`: so it stands for no other.
-/

namespace MiniPascal.Json

/-! ## §1 The parser -/

def skipSpaces (text : List Char) : List Char :=
  text.dropWhile isSpace

/-- A run of digits that is not empty. -/
def digits? (text : List Char) : Option (List Char × List Char) :=
  if text.takeWhile Char.isDigit = [] then none
  else some (text.takeWhile Char.isDigit, text.dropWhile Char.isDigit)

def whole? (text : List Char) : Option (List Char × List Char) := do
  let (whole, rest) ← digits? text
  if whole.head? = some '0' ∧ whole ≠ ['0'] then none else return (whole, rest)

/-- The digits behind a point, if a point stands here. -/
def fraction? : List Char → Option (Option (List Char) × List Char)
  | '.' :: text => do
    let (digits, rest) ← digits? text
    return (some digits, rest)
  | text => some (none, text)

/-- A power of ten with its sign, behind the letter. -/
def signedPower? : List Char → Option (Int × List Char)
  | '-' :: text => do
    let (digits, rest) ← digits? text
    return (-digitsValue digits, rest)
  | '+' :: text => do
    let (digits, rest) ← digits? text
    return (digitsValue digits, rest)
  | text => do
    let (digits, rest) ← digits? text
    return (digitsValue digits, rest)

/-- The power of ten, if its letter stands here. -/
def power? (text : List Char) : Option (Option Int × List Char) :=
  match text with
  | [] => some (none, [])
  | letter :: rest =>
    if isPowerLetter letter then do
      let (power, rest) ← signedPower? rest
      return (some power, rest)
    else some (none, text)

def unsignedNumeral? (negative : Bool) (text : List Char) : Option (Numeral × List Char) := do
  let (whole, text) ← whole? text
  let (fraction, text) ← fraction? text
  let (power, text) ← power? text
  return (⟨negative, whole, fraction, power⟩, text)

def numeral? : List Char → Option (Numeral × List Char)
  | '-' :: text => unsignedNumeral? true text
  | text => unsignedNumeral? false text

/-- The character that a code point or a pair of surrogates stands for, behind the letter
`u`. -/
def codePointEscape? : List Char → Option (Char × List Char)
  | h :: i :: j :: k :: rest =>
    match codePoint? [h, i, j, k], rest with
    | some c, _ => some (c, rest)
    | none, '\\' :: 'u' :: h' :: i' :: j' :: k' :: rest =>
      (surrogates? [h, i, j, k] [h', i', j', k']).map (·, rest)
    | none, _ => none
  | _ => none

/-- One character of a string. -/
def character? : List Char → Option (Char × List Char)
  | '\\' :: 'u' :: text => codePointEscape? text
  | '\\' :: letter :: rest => (shortEscape? letter).map (·, rest)
  | c :: rest => if c.toNat < 0x20 ∨ c = '"' ∨ c = '\\' then none else some (c, rest)
  | [] => none

/-- The characters of a string up to the closing quotation mark, in at most so many steps. -/
def content? : Nat → List Char → Option (List Char × List Char)
  | 0, _ => none
  | steps + 1, text =>
    match text with
    | '"' :: rest => some ([], rest)
    | text => do
      let (c, rest) ← character? text
      let (chars, rest) ← content? steps rest
      return (c :: chars, rest)

/-- The text of a string, behind the opening quotation mark. -/
def text? (text : List Char) : Option (String × List Char) := do
  let (chars, rest) ← content? (text.length + 1) text
  return (String.ofList chars, rest)

/-- A name with its colon. -/
def name? (text : List Char) : Option (String × List Char) :=
  match skipSpaces text with
  | '"' :: inner => do
    let (name, rest) ← text? inner
    match skipSpaces rest with
    | ':' :: rest => return (name, rest)
    | _ => none
  | _ => none

/-- A value without brackets. -/
def plain? : List Char → Option (Value × List Char)
  | 'n' :: 'u' :: 'l' :: 'l' :: rest => some (.null, rest)
  | 't' :: 'r' :: 'u' :: 'e' :: rest => some (.boolean true, rest)
  | 'f' :: 'a' :: 'l' :: 's' :: 'e' :: rest => some (.boolean false, rest)
  | '"' :: inner => do
    let (text, rest) ← text? inner
    return (.string text, rest)
  | text => do
    let (numeral, rest) ← numeral? text
    return (.number numeral, rest)

mutual

/-- A value without spaces before it. -/
def bare? : Nat → List Char → Option (Value × List Char)
  | 0, _ => none
  | steps + 1, text =>
    match text with
    | '[' :: inner =>
      match skipSpaces inner with
      | ']' :: rest => some (.array [], rest)
      | _ => do
        let (values, rest) ← items? steps inner
        return (.array values, rest)
    | '\x7b' :: inner =>
      match skipSpaces inner with
      | '\x7d' :: rest => some (.object [], rest)
      | _ => do
        let (members, rest) ← members? steps inner
        return (.object members, rest)
    | text => plain? text

/-- A value with the spaces around it. -/
def element? : Nat → List Char → Option (Value × List Char)
  | 0, _ => none
  | steps + 1, text => do
    let (value, rest) ← bare? steps (skipSpaces text)
    return (value, skipSpaces rest)

/-- The values of an array, with the closing bracket. -/
def items? : Nat → List Char → Option (List Value × List Char)
  | 0, _ => none
  | steps + 1, text => do
    let (value, rest) ← element? steps text
    match rest with
    | ',' :: rest =>
      let (values, rest) ← items? steps rest
      return (value :: values, rest)
    | ']' :: rest => return ([value], rest)
    | _ => none

/-- The members of an object, with the closing brace. -/
def members? : Nat → List Char → Option (List (String × Value) × List Char)
  | 0, _ => none
  | steps + 1, text => do
    let (name, rest) ← name? text
    let (value, rest) ← element? steps rest
    match rest with
    | ',' :: rest =>
      let (members, rest) ← members? steps rest
      return ((name, value) :: members, rest)
    | '\x7d' :: rest => return ([(name, value)], rest)
    | _ => none

end

/-- **The value that a document stands for**, if it is well-formed. -/
def parse? (text : String) : Option Value := do
  let (value, rest) ← element? (3 * text.toList.length + 2) text.toList
  if rest = [] then return value else none

/-! ## §2 Numbers are read whole -/

section Numbers

variable {text rest : List Char}

/-- No number goes on here. -/
def EndsNumber (rest : List Char) : Prop :=
  ∀ c ∈ rest.head?, c.isDigit = false ∧ c ≠ '.' ∧ isPowerLetter c = false

theorem digits?_append (hdigits : IsDigits text) (hends : ∀ c ∈ rest.head?, c.isDigit = false) :
    digits? (text ++ rest) = some (text, rest) := by
  rw [digits?, takeWhile_run hdigits.2 hends, dropWhile_run hdigits.2 hends, if_neg hdigits.1]

theorem whole?_append (hwhole : IsWhole text) (hends : ∀ c ∈ rest.head?, c.isDigit = false) :
    whole? (text ++ rest) = some (text, rest) := by
  have hnoZero : ¬ (text.head? = some '0' ∧ text ≠ ['0']) := by
    rintro ⟨hzero, hmore⟩
    exact hmore (hwhole.noLeadingZero hzero)
  simp only [whole?, digits?_append hwhole.isDigits hends, Option.bind_eq_bind, Option.bind_some,
    if_neg hnoZero]
  rfl

theorem fraction?_append {digits? : Option (List Char)} (hfraction : IsFraction digits? text)
    (hends : ∀ c ∈ rest.head?, c.isDigit = false ∧ c ≠ '.') :
    fraction? (text ++ rest) = some (digits?, rest) := by
  cases hfraction with
  | none =>
    rw [List.nil_append]
    unfold fraction?
    split
    · -- a point behind the number would begin a fraction
      exact absurd rfl (hends '.' rfl).2
    · rfl
  | digits hdigits =>
    rw [List.cons_append, fraction?, digits?_append hdigits fun c hfirst => (hends c hfirst).1]
    rfl

theorem isDigit_head {digits : List Char} (hdigits : IsDigits digits) :
    ∃ d more, digits = d :: more ∧ d.isDigit = true := by
  obtain ⟨d, more, rfl⟩ := List.exists_cons_of_ne_nil hdigits.1
  exact ⟨d, more, rfl, hdigits.2 d List.mem_cons_self⟩

/-- A digit is not a sign. -/
theorem signedPower?_of_digit {d : Char} (hdigit : d.isDigit = true) (more : List Char) :
    signedPower? (d :: more)
      = (digits? (d :: more)).map fun read => ((digitsValue read.1 : Int), read.2) := by
  rw [signedPower?]
  · -- the two signs come first, and the digits are read when neither is there
    cases digits? (d :: more) <;> rfl
  · intro text hsame
    obtain ⟨rfl, -⟩ := List.cons.inj hsame
    cases hdigit
  · intro text hsame
    obtain ⟨rfl, -⟩ := List.cons.inj hsame
    cases hdigit

theorem power?_append {power : Option Int} (hpower : IsPower power text)
    (hends : EndsNumber rest) : power? (text ++ rest) = some (power, rest) := by
  have hnoDigit : ∀ c ∈ rest.head?, c.isDigit = false := fun c hfirst => (hends c hfirst).1
  cases hpower with
  | none =>
    cases rest with
    | nil => rfl
    | cons c rest =>
      have hnoLetter : ¬ isPowerLetter c = true := by simp [(hends c rfl).2.2]
      rw [List.nil_append, power?, if_neg hnoLetter]
  -- with no sign, the first digit has to be seen before the sign is ruled out
  | @unsigned letter digits hknown hdigits =>
    have hread := digits?_append hdigits hnoDigit
    obtain ⟨d, more, rfl, hdigit⟩ := isDigit_head hdigits
    have hsigned := signedPower?_of_digit hdigit (more ++ rest)
    rw [← List.cons_append, hread] at hsigned
    rw [List.cons_append, power?, if_pos hknown, hsigned]
    rfl
  | positive hknown hdigits =>
    rw [List.cons_append, List.cons_append, power?, if_pos hknown, signedPower?,
      digits?_append hdigits hnoDigit]
    rfl
  | negative hknown hdigits =>
    rw [List.cons_append, List.cons_append, power?, if_pos hknown, signedPower?,
      digits?_append hdigits hnoDigit]
    rfl

/-- What stands behind the digits of a number ends them. -/
theorem head_power_append {power? : Option Int} (hpower : IsPower power? text)
    (hends : EndsNumber rest) : ∀ c ∈ (text ++ rest).head?, c.isDigit = false ∧ c ≠ '.' := by
  have hletter : ∀ c, isPowerLetter c = true → c.isDigit = false ∧ c ≠ '.' := by
    intro c hknown
    rcases Bool.or_eq_true_iff.mp hknown with hsame | hsame <;> rw [beq_iff_eq.mp hsame] <;>
      decide
  intro c hfirst
  -- either a letter of the power stands there, or what is behind the whole number
  cases hpower with
  | none => exact ⟨(hends c hfirst).1, (hends c hfirst).2.1⟩
  | unsigned hknown =>
    obtain rfl := Option.some.inj hfirst
    exact hletter _ hknown
  | positive hknown =>
    obtain rfl := Option.some.inj hfirst
    exact hletter _ hknown
  | negative hknown =>
    obtain rfl := Option.some.inj hfirst
    exact hletter _ hknown

theorem unsignedNumeral?_append {whole fraction power : List Char}
    {fractionDigits : Option (List Char)} {powerValue : Option Int} (hwhole : IsWhole whole)
    (hfraction : IsFraction fractionDigits fraction) (hpower : IsPower powerValue power)
    (hends : EndsNumber rest) (negative : Bool) :
    unsignedNumeral? negative (whole ++ (fraction ++ power) ++ rest)
      = some (⟨negative, whole, fractionDigits, powerValue⟩, rest) := by
  -- each part ends where the next one begins, or where the number ends if no part is left
  have hbehind := head_power_append hpower hends
  have hnoDigit : ∀ c ∈ (fraction ++ (power ++ rest)).head?, c.isDigit = false := by
    intro c hfirst
    cases hfraction with
    | none => exact (hbehind c hfirst).1
    | digits =>
      obtain rfl := Option.some.inj hfirst
      rfl
  simp only [unsignedNumeral?, List.append_assoc, whole?_append hwhole hnoDigit,
    fraction?_append hfraction hbehind, power?_append hpower hends, Option.bind_eq_bind,
    Option.bind_some]
  rfl

theorem numeral?_of_digit {d : Char} (hdigit : d.isDigit = true) (more : List Char) :
    numeral? (d :: more) = unsignedNumeral? false (d :: more) := by
  rw [numeral?]
  intro text hsame
  obtain ⟨rfl, -⟩ := List.cons.inj hsame
  cases hdigit

/-- **A number is read whole.** -/
theorem numeral?_append {numeral : Numeral} (hnumeral : IsNumeral numeral text)
    (hends : EndsNumber rest) : numeral? (text ++ rest) = some (numeral, rest) := by
  cases hnumeral with
  | @positive whole fraction power _ _ hwhole hfraction hpower =>
    have hread := unsignedNumeral?_append hwhole hfraction hpower hends false
    obtain ⟨d, more, rfl, hdigit⟩ := isDigit_head hwhole.isDigits
    exact (numeral?_of_digit hdigit _).trans hread
  | negative hwhole hfraction hpower =>
    exact unsignedNumeral?_append hwhole hfraction hpower hends true

theorem numeral?_of_isNumeral {numeral : Numeral} (hnumeral : IsNumeral numeral text) :
    numeral? text = some (numeral, []) := by
  have hends : EndsNumber [] := nofun
  have hread := numeral?_append hnumeral hends
  rwa [List.append_nil] at hread

end Numbers

/-! ## §3 Strings are read whole -/

section Strings

variable {text rest : List Char}

/-- A high surrogate alone is no character. -/
theorem codePoint?_of_surrogates {high low : List Char} {c : Char}
    (hknown : surrogates? high low = some c) : codePoint? high = none := by
  unfold surrogates? at hknown
  unfold codePoint?
  cases hvalue : hexNumber? high with
  | none => rfl
  | some h =>
    cases hvalue' : hexNumber? low with
    | none => simp [hvalue, hvalue'] at hknown
    | some l =>
      simp only [hvalue, hvalue', Option.bind_eq_bind, Option.bind_some] at hknown ⊢
      split at hknown
      · rename_i hrange
        -- the high surrogates are no characters, though the pair stands for one
        have hsurrogate : ¬ h.isValidChar := by
          unfold Nat.isValidChar
          omega
        rw [if_neg hsurrogate]
      · cases hknown

theorem character?_of_plain {c : Char} (hnoBackslash : c ≠ '\\') (rest : List Char) :
    character? (c :: rest)
      = if c.toNat < 0x20 ∨ c = '"' ∨ c = '\\' then none else some (c, rest) := by
  rw [character?]
  · intro text hbackslash
    exact absurd hbackslash hnoBackslash
  · intro letter text hbackslash
    exact absurd hbackslash hnoBackslash

theorem character?_of_short {letter : Char} (hother : letter ≠ 'u') (rest : List Char) :
    character? ('\\' :: letter :: rest) = (shortEscape? letter).map (·, rest) := by
  rw [character?]
  exact hother

theorem character?_append {c : Char} (hcharacter : IsCharacter c text) (rest : List Char) :
    character? (text ++ rest) = some (c, rest) := by
  cases hcharacter with
  | plain hnoControl hnoQuote hnoBackslash =>
    -- the reader refuses just what the grammar does not let stand plain
    have hplain : ¬ (c.toNat < 0x20 ∨ c = '"' ∨ c = '\\') := by
      rintro (hcontrol | hquote | hbackslash)
      · omega
      · exact hnoQuote hquote
      · exact hnoBackslash hbackslash
    rw [List.singleton_append, character?_of_plain hnoBackslash, if_neg hplain]
  | @short letter c hknown =>
    -- `u` is the one letter that opens a code point, and it is no short escape
    have hother : letter ≠ 'u' := by
      rintro rfl
      cases hknown
    show character? ('\\' :: letter :: rest) = _
    rw [character?_of_short hother, hknown]
    rfl
  | @codePoint h i j k c hknown =>
    show codePointEscape? (h :: i :: j :: k :: rest) = _
    unfold codePointEscape?
    simp only [hknown]
  | @surrogates h i j k h' i' j' k' c hknown =>
    -- four digits that are a high surrogate are read as a pair, and only then
    show codePointEscape? (h :: i :: j :: k :: '\\' :: 'u' :: h' :: i' :: j' :: k' :: rest) = _
    unfold codePointEscape?
    simp only [codePoint?_of_surrogates hknown, hknown]
    rfl

/-- No way to write a character begins with a quotation mark. -/
theorem IsCharacter.head {c : Char} (hcharacter : IsCharacter c text) :
    ∃ d more, text = d :: more ∧ d ≠ '"' := by
  cases hcharacter with
  | plain _ hnoQuote _ => exact ⟨_, _, rfl, hnoQuote⟩
  | short => exact ⟨'\\', _, rfl, by decide⟩
  | codePoint => exact ⟨'\\', _, rfl, by decide⟩
  | surrogates => exact ⟨'\\', _, rfl, by decide⟩

theorem content?_append {chars : List Char} (hcontent : IsContent chars text) {steps : Nat}
    (henough : text.length < steps) (rest : List Char) :
    content? steps (text ++ '"' :: rest) = some (chars, rest) := by
  -- on the characters, each of which takes one step and at least one place of the text
  induction hcontent generalizing steps with
  | nil =>
    obtain ⟨steps, rfl⟩ := Nat.exists_eq_add_one_of_ne_zero (Nat.ne_zero_of_lt henough)
    rfl
  | @cons c chars first more hcharacter _ ih =>
    obtain ⟨steps, rfl⟩ := Nat.exists_eq_add_one_of_ne_zero (Nat.ne_zero_of_lt henough)
    have hread := character?_append hcharacter (more ++ '"' :: rest)
    obtain ⟨d, behind, rfl, hnoQuote⟩ := hcharacter.head
    have hleft : more.length < steps := by
      simp only [List.length_append, List.length_cons] at henough
      omega
    rw [List.append_assoc]
    unfold content?
    split
    · -- no character that is written begins with the closing quotation mark
      rename_i hsame
      exact absurd (List.cons.inj hsame).1 hnoQuote
    · simp only [hread, ih hleft, Option.bind_eq_bind, Option.bind_some]
      rfl

/-- **A string is read whole.** -/
theorem text?_append {chars : List Char} (hcontent : IsContent chars text) (rest : List Char) :
    text? (text ++ '"' :: rest) = some (String.ofList chars, rest) := by
  have henough : text.length < (text ++ '"' :: rest).length + 1 := by
    rw [List.length_append]
    omega
  rw [text?, content?_append hcontent henough]
  rfl

theorem skipSpaces_append {before : List Char} (hspaces : IsSpaces before)
    (hstops : ∀ c ∈ rest.head?, isSpace c = false) : skipSpaces (before ++ rest) = rest :=
  dropWhile_run hspaces hstops

/-- **A name is read with its colon.** -/
theorem name?_append {name : String} (hname : IsName name text) (rest : List Char) :
    name? (text ++ rest) = some (name, rest) := by
  cases hname with
  | @mk before after chars content hspaces hcontent hspaces' =>
    have hnoSpace : isSpace '"' = false := rfl
    have hnoSpace' : isSpace ':' = false := rfl
    have hshape : before ++ '"' :: (content ++ '"' :: (after ++ [':'])) ++ rest
        = before ++ '"' :: (content ++ '"' :: (after ++ ':' :: rest)) := by simp
    rw [hshape, name?, skipSpaces_append hspaces (forall_head?_cons hnoSpace _)]
    simp only [text?_append hcontent, skipSpaces_append hspaces' (forall_head?_cons hnoSpace' _),
      Option.bind_eq_bind, Option.bind_some]
    rfl

end Strings

/-! ## §4 How phrases begin -/

section Beginnings

variable {text rest : List Char} {value : Value}

/-- A value begins with none of these. -/
def startsValue (c : Char) : Bool :=
  !isSpace c && c != ']' && c != '\x7d'

theorem isSpace_of_startsValue {c : Char} (hstarts : startsValue c = true) : isSpace c = false := by
  simp only [startsValue, Bool.and_eq_true, Bool.not_eq_true'] at hstarts
  exact hstarts.1.1

/-- A number begins with a digit or with a minus, and so with nothing else. -/
theorem ne_of_startsNumber {c d : Char} (hstart : d.isDigit = true ∨ d = '-')
    (hnoDigit : c.isDigit = false) (hnoMinus : c ≠ '-') : d ≠ c := by
  rintro rfl
  rcases hstart with hdigit | hminus
  · rw [hdigit] at hnoDigit
    cases hnoDigit
  · exact hnoMinus hminus

theorem IsNumeral.head {numeral : Numeral} (hnumeral : IsNumeral numeral text) :
    ∃ d more, text = d :: more ∧ (d.isDigit = true ∨ d = '-') := by
  cases hnumeral with
  | positive hwhole =>
    obtain ⟨d, more, rfl, hdigit⟩ := isDigit_head hwhole.isDigits
    exact ⟨d, _, rfl, .inl hdigit⟩
  | negative => exact ⟨'-', _, rfl, .inr rfl⟩

theorem Writes.head_bare (hwrites : Writes (.bare value) text) :
    ∃ d more, text = d :: more ∧ startsValue d = true := by
  cases hwrites with
  | number hnumeral =>
    -- a digit is known by its class only, so the spaces and brackets are ruled out one by one
    obtain ⟨d, more, rfl, hstart⟩ := hnumeral.head
    have hother : ∀ c, c.isDigit = false → c ≠ '-' → d ≠ c := fun c => ne_of_startsNumber hstart
    exact ⟨d, more, rfl, by simp [startsValue, isSpace, hother]⟩
  | nullWord => exact ⟨_, _, rfl, rfl⟩
  | trueWord => exact ⟨_, _, rfl, rfl⟩
  | falseWord => exact ⟨_, _, rfl, rfl⟩
  | string => exact ⟨_, _, rfl, rfl⟩
  | emptyArray => exact ⟨_, _, rfl, rfl⟩
  | array => exact ⟨_, _, rfl, rfl⟩
  | emptyObject => exact ⟨_, _, rfl, rfl⟩
  | object => exact ⟨_, _, rfl, rfl⟩

/-- Behind its spaces an element begins with a value. -/
theorem Writes.head_element (hwrites : Writes (.element value) text) (rest : List Char) :
    ∃ d more, skipSpaces (text ++ rest) = d :: more ∧ startsValue d = true := by
  cases hwrites with
  | @element _ before bare after hspaces hwritten hspaces' =>
    obtain ⟨d, more, rfl, hstarts⟩ := hwritten.head_bare
    have hnoSpace := isSpace_of_startsValue hstarts
    refine ⟨d, more ++ (after ++ rest), ?_, hstarts⟩
    have hshape :
        before ++ (d :: more ++ after) ++ rest = before ++ d :: (more ++ (after ++ rest)) := by
      simp
    rw [hshape, skipSpaces_append hspaces (forall_head?_cons hnoSpace _)]

theorem Writes.head_items {values : List Value} (hwrites : Writes (.items values) text)
    (rest : List Char) :
    ∃ d more, skipSpaces (text ++ rest) = d :: more ∧ startsValue d = true := by
  cases hwrites with
  | lastItem honly => exact honly.head_element rest
  | item hhead =>
    rw [List.append_assoc]
    exact hhead.head_element _

theorem IsName.head {name : String} (hname : IsName name text) (rest : List Char) :
    ∃ more, skipSpaces (text ++ rest) = '"' :: more := by
  cases hname with
  | @mk before after chars content hspaces =>
    have hnoSpace : isSpace '"' = false := rfl
    rw [List.append_assoc]
    exact ⟨_, skipSpaces_append hspaces (forall_head?_cons hnoSpace _)⟩

theorem Writes.head_members {members : List (String × Value)}
    (hwrites : Writes (.members members) text) (rest : List Char) :
    ∃ more, skipSpaces (text ++ rest) = '"' :: more := by
  cases hwrites with
  | lastMember hname =>
    rw [List.append_assoc]
    exact hname.head _
  | member hname =>
    rw [List.append_assoc]
    exact hname.head _

/-- A number is told from the other values by its first character. -/
theorem plain?_numeral {numeral : Numeral} (hnumeral : IsNumeral numeral text)
    (hends : EndsNumber rest) : plain? (text ++ rest) = some (.number numeral, rest) := by
  have hread := numeral?_append hnumeral hends
  obtain ⟨d, more, rfl, hstart⟩ := hnumeral.head
  unfold plain?
  split
  case h_5 =>
    rw [hread]
    rfl
  -- the other values begin with a letter or a quotation mark
  all_goals
    rename_i hsame
    exact absurd (List.cons.inj hsame).1 (ne_of_startsNumber hstart rfl (by decide))

end Beginnings

/-! ## §5 One step of the parser -/

section Steps

variable {steps : Nat} {text rest inner : List Char} {value : Value}

/-- A value without brackets is read as such. -/
theorem bare?_of_plain {d : Char} {more : List Char} (hnoBracket : d ≠ '[')
    (hnoBrace : d ≠ '\x7b') : bare? (steps + 1) (d :: more) = plain? (d :: more) := by
  rw [bare?]
  · intro inner hsame
    exact hnoBracket (List.cons.inj hsame).1
  · intro inner hsame
    exact hnoBrace (List.cons.inj hsame).1

theorem bare?_number {numeral : Numeral} (hnumeral : IsNumeral numeral text)
    (hends : EndsNumber rest) :
    bare? (steps + 1) (text ++ rest) = some (.number numeral, rest) := by
  have hread := plain?_numeral hnumeral hends
  obtain ⟨d, more, rfl, hstart⟩ := hnumeral.head
  have hnoBracket : d ≠ '[' := ne_of_startsNumber hstart rfl (by decide)
  have hnoBrace : d ≠ '\x7b' := ne_of_startsNumber hstart rfl (by decide)
  exact (bare?_of_plain hnoBracket hnoBrace).trans hread

theorem bare?_string {chars content : List Char} (hcontent : IsContent chars content) :
    bare? (steps + 1) ('"' :: (content ++ '"' :: rest))
      = some (.string (String.ofList chars), rest) := by
  rw [bare?_of_plain (by decide) (by decide), plain?, text?_append hcontent rest]
  rfl

theorem bare?_emptyArray {between : List Char} (hspaces : IsSpaces between) :
    bare? (steps + 1) ('[' :: (between ++ ']' :: rest)) = some (.array [], rest) := by
  have hnoSpace : isSpace ']' = false := rfl
  rw [bare?, skipSpaces_append hspaces (forall_head?_cons hnoSpace _)]
  rfl

theorem bare?_array {values : List Value}
    (hstarts : ∃ d more, skipSpaces inner = d :: more ∧ startsValue d = true)
    (hread : items? steps inner = some (values, rest)) :
    bare? (steps + 1) ('[' :: inner) = some (.array values, rest) := by
  obtain ⟨d, more, hskipped, hstarts⟩ := hstarts
  rw [bare?, hskipped]
  split
  · -- the array is not empty, as a value begins here
    rename_i hsame
    obtain ⟨rfl, -⟩ := List.cons.inj hsame
    cases hstarts
  · rw [hread]
    rfl

theorem bare?_emptyObject {between : List Char} (hspaces : IsSpaces between) :
    bare? (steps + 1) ('\x7b' :: (between ++ '\x7d' :: rest)) = some (.object [], rest) := by
  have hnoSpace : isSpace '\x7d' = false := rfl
  rw [bare?, skipSpaces_append hspaces (forall_head?_cons hnoSpace _)]
  rfl

theorem bare?_object {members : List (String × Value)}
    (hstarts : ∃ more, skipSpaces inner = '"' :: more)
    (hread : members? steps inner = some (members, rest)) :
    bare? (steps + 1) ('\x7b' :: inner) = some (.object members, rest) := by
  obtain ⟨more, hskipped⟩ := hstarts
  rw [bare?, hskipped]
  split
  · -- the object is not empty, as a name begins here
    rename_i hsame
    cases hsame
  · rw [hread]
    rfl

theorem element?_padded {before after : List Char} (hwrites : Writes (.bare value) text)
    (hspaces : IsSpaces before) (hspaces' : IsSpaces after)
    (hends : ∀ c ∈ rest.head?, isSpace c = false)
    (hread : bare? steps (text ++ (after ++ rest)) = some (value, after ++ rest)) :
    element? (steps + 1) (before ++ (text ++ (after ++ rest))) = some (value, rest) := by
  -- the spaces before the value end where it begins, as no value begins with a space
  obtain ⟨d, more, rfl, hstarts⟩ := hwrites.head_bare
  have hskipped : skipSpaces (before ++ (d :: more ++ (after ++ rest)))
      = d :: more ++ (after ++ rest) :=
    skipSpaces_append hspaces (forall_head?_cons (isSpace_of_startsValue hstarts) _)
  rw [element?, hskipped, hread]
  exact congrArg (fun rest => some (value, rest)) (skipSpaces_append hspaces' hends)

theorem items?_last (hread : element? steps text = some (value, ']' :: rest)) :
    items? (steps + 1) text = some ([value], rest) := by
  rw [items?, hread]
  rfl

theorem items?_item {values : List Value} {behind : List Char}
    (hread : element? steps text = some (value, ',' :: rest))
    (hreadMore : items? steps rest = some (values, behind)) :
    items? (steps + 1) text = some (value :: values, behind) := by
  rw [items?, hread]
  simp only [Option.bind_eq_bind, Option.bind_some, hreadMore]
  rfl

theorem members?_last {name : String} {key : List Char} (hname : IsName name key)
    (hread : element? steps text = some (value, '\x7d' :: rest)) :
    members? (steps + 1) (key ++ text) = some ([(name, value)], rest) := by
  rw [members?, name?_append hname]
  simp only [Option.bind_eq_bind, Option.bind_some, hread]
  rfl

theorem members?_member {name : String} {key behind : List Char} {members : List (String × Value)}
    (hname : IsName name key) (hread : element? steps text = some (value, ',' :: rest))
    (hreadMore : members? steps rest = some (members, behind)) :
    members? (steps + 1) (key ++ text) = some ((name, value) :: members, behind) := by
  rw [members?, name?_append hname]
  simp only [Option.bind_eq_bind, Option.bind_some, hread, hreadMore]
  rfl

end Steps

/-! ## §6 Phrases are read whole -/

section Phrases

variable {text rest : List Char}

/-- The steps that reading a phrase takes. -/
def Phrase.steps : Phrase → Nat → Nat
  | .bare _, length => 3 * length + 1
  | .element _, length => 3 * length + 2
  | .items _, length => 3 * length + 3
  | .members _, length => 3 * length + 3

/-- What may stand behind a phrase.  Brackets belong to the text behind what is in them. -/
def Phrase.Ends : Phrase → List Char → Prop
  | .bare _, rest => EndsNumber rest
  | .element _, rest => ∀ c ∈ rest.head?, c = ',' ∨ c = ']' ∨ c = '\x7d'
  | .items _, rest => ∃ behind, rest = ']' :: behind
  | .members _, rest => ∃ behind, rest = '\x7d' :: behind

/-- The phrase is read, and what is behind it is left. -/
def Phrase.IsRead (steps : Nat) (text rest : List Char) : Phrase → Prop
  | .bare value => bare? steps (text ++ rest) = some (value, rest)
  | .element value => element? steps (text ++ rest) = some (value, rest)
  | .items values => items? steps (text ++ rest) = some (values, rest.tail)
  | .members named => members? steps (text ++ rest) = some (named, rest.tail)

/-- A number ends at a space, and at whatever may stand behind an element. -/
theorem endsNumber_spaces {after : List Char} (hspaces : IsSpaces after)
    (hends : ∀ c ∈ rest.head?, c = ',' ∨ c = ']' ∨ c = '\x7d') : EndsNumber (after ++ rest) := by
  intro c hfirst
  cases after with
  | nil => rcases hends c hfirst with rfl | rfl | rfl <;> decide
  | cons d after =>
    obtain rfl := Option.some.inj hfirst
    have hspace := hspaces d List.mem_cons_self
    simp only [isSpace, Bool.or_eq_true, beq_iff_eq] at hspace
    rcases hspace with ((rfl | rfl) | rfl) | rfl <;> decide

/-- A step is left for every phrase in a phrase. -/
theorem exists_steps {n steps : Nat} (henough : n + 1 ≤ steps) :
    ∃ left, steps = left + 1 ∧ n ≤ left := by
  obtain ⟨left, rfl⟩ := Nat.exists_eq_add_of_le' (Nat.le_of_add_left_le henough)
  exact ⟨left, rfl, Nat.le_of_succ_le_succ henough⟩

/-- **Phrases are read whole.** -/
theorem isRead_of_writes {phrase : Phrase} (hwrites : Writes phrase text) {steps : Nat}
    (henough : phrase.steps text.length ≤ steps) (hends : phrase.Ends rest) :
    phrase.IsRead steps text rest := by
  -- the phrases in a phrase are shorter, so that the steps suffice for them as well
  induction hwrites generalizing rest steps with
  -- words, numbers, strings and empty brackets take one step, and no phrase is in them
  | nullWord =>
    obtain ⟨steps, rfl, -⟩ := exists_steps henough
    exact bare?_of_plain (by decide) (by decide)
  | trueWord =>
    obtain ⟨steps, rfl, -⟩ := exists_steps henough
    exact bare?_of_plain (by decide) (by decide)
  | falseWord =>
    obtain ⟨steps, rfl, -⟩ := exists_steps henough
    exact bare?_of_plain (by decide) (by decide)
  | number hnumeral =>
    obtain ⟨steps, rfl, -⟩ := exists_steps henough
    exact bare?_number hnumeral hends
  | string hcontent =>
    obtain ⟨steps, rfl, -⟩ := exists_steps henough
    simpa [Phrase.IsRead] using bare?_string hcontent
  | emptyArray hspaces =>
    obtain ⟨steps, rfl, -⟩ := exists_steps henough
    simpa [Phrase.IsRead] using bare?_emptyArray hspaces
  -- the two brackets leave the steps that the values in them take
  | @array values text hitems ih =>
    obtain ⟨steps, rfl, hleft⟩ := exists_steps henough
    have henough : (Phrase.items values).steps text.length ≤ steps := by
      simp only [Phrase.steps, List.length_cons, List.length_append, List.length_nil] at hleft ⊢
      omega
    have hread := ih henough ⟨rest, rfl⟩
    simpa [Phrase.IsRead] using bare?_array (hitems.head_items (']' :: rest)) hread
  | emptyObject hspaces =>
    obtain ⟨steps, rfl, -⟩ := exists_steps henough
    simpa [Phrase.IsRead] using bare?_emptyObject hspaces
  | @object members text hwritten ih =>
    obtain ⟨steps, rfl, hleft⟩ := exists_steps henough
    have henough : (Phrase.members members).steps text.length ≤ steps := by
      simp only [Phrase.steps, List.length_cons, List.length_append, List.length_nil] at hleft ⊢
      omega
    have hread := ih henough ⟨rest, rfl⟩
    simpa [Phrase.IsRead] using bare?_object (hwritten.head_members ('\x7d' :: rest)) hread
  -- a number in it ends at the spaces behind it, and these end at what is behind the element
  | @element value before text after hspaces hbare hspaces' ih =>
    obtain ⟨steps, rfl, hleft⟩ := exists_steps henough
    have henough : (Phrase.bare value).steps text.length ≤ steps := by
      simp only [Phrase.steps, List.length_append] at hleft ⊢
      omega
    have hnoSpace : ∀ c ∈ rest.head?, isSpace c = false := by
      intro c hfirst
      rcases hends c hfirst with rfl | rfl | rfl <;> rfl
    have hread := ih henough (endsNumber_spaces hspaces' hends)
    simpa [Phrase.IsRead] using element?_padded hbare hspaces hspaces' hnoSpace hread
  | lastItem _ ih =>
    obtain ⟨steps, rfl, hleft⟩ := exists_steps henough
    -- the closing bracket is what stands behind the last value
    obtain ⟨behind, rfl⟩ := hends
    exact items?_last (ih hleft (forall_head?_cons (.inr (.inl rfl)) _))
  | @item value values first more _ _ ihHead ihMore =>
    obtain ⟨steps, rfl, hleft⟩ := exists_steps henough
    obtain ⟨henough, henoughMore⟩ : (Phrase.element value).steps first.length ≤ steps ∧
        (Phrase.items values).steps more.length ≤ steps := by
      simp only [Phrase.steps, List.length_append, List.length_cons] at hleft ⊢
      omega
    -- the comma is what stands behind the first value
    have hread := ihHead henough (forall_head?_cons (.inl rfl) (more ++ rest))
    simpa [Phrase.IsRead] using items?_item hread (ihMore henoughMore hends)
  | @lastMember name value key text hname _ ih =>
    obtain ⟨steps, rfl, hleft⟩ := exists_steps henough
    obtain ⟨behind, rfl⟩ := hends
    have henough : (Phrase.element value).steps text.length ≤ steps := by
      simp only [Phrase.steps, List.length_append] at hleft ⊢
      omega
    have hread := ih henough (forall_head?_cons (.inr (.inr rfl)) behind)
    simpa [Phrase.IsRead] using members?_last hname hread
  | @member name value members key first more hname _ _ ihHead ihMore =>
    obtain ⟨steps, rfl, hleft⟩ := exists_steps henough
    obtain ⟨henough, henoughMore⟩ : (Phrase.element value).steps first.length ≤ steps ∧
        (Phrase.members members).steps more.length ≤ steps := by
      simp only [Phrase.steps, List.length_append, List.length_cons] at hleft ⊢
      omega
    have hread := ihHead henough (forall_head?_cons (.inl rfl) (more ++ rest))
    simpa [Phrase.IsRead] using members?_member hname hread (ihMore henoughMore hends)

end Phrases

/-- **Documents are parsed.**  A well-formed document is read as the value that it stands for. -/
theorem parse?_of_isDocument {text : String} {value : Value}
    (hdocument : IsDocument value text.toList) : parse? text = some value := by
  have hnothing : ∀ c ∈ ([] : List Char).head?, c = ',' ∨ c = ']' ∨ c = '\x7d' := by simp
  have hread := isRead_of_writes hdocument (Nat.le_refl _) hnothing
  have hread : element? (3 * text.toList.length + 2) (text.toList ++ []) = some (value, []) := hread
  rw [List.append_nil] at hread
  rw [parse?, hread]
  rfl

/-- **A document stands for one value only.** -/
theorem value_unique {left right : Value} {text : List Char} (hdocument : IsDocument left text)
    (hdocument' : IsDocument right text) : left = right := by
  rw [← String.toList_ofList (l := text)] at hdocument hdocument'
  have hparsed := parse?_of_isDocument hdocument
  rw [parse?_of_isDocument hdocument'] at hparsed
  exact (Option.some.inj hparsed).symm

end MiniPascal.Json
