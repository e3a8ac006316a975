import MiniPascal.Text.Bytes
import Mathlib.Data.List.Basic

/-!
# Stretches of Text

What a scan passes over is cut out of a text in two ways: as a run of characters
with a property, and between two byte offsets.  The facts here say when such a cut
gives back exactly the stretch that it was meant for.

- `takeWhile_run`, `dropWhile_run`: a run ends where the property first fails;
- `isPrefix_run`: no stretch with the property is longer than the run;
- `sliceBytes?_middle`: the stretch between two byte lengths;
- `takeBytes?_eq_some_iff`, `dropBytes?_eq_some_iff`, `sliceBytes?_eq_some_iff`: the cuts said
  without a walk over the text.
-/

namespace MiniPascal

/-! ## §1 Runs -/

section Runs

variable {p : Char → Bool} {run rest : List Char}

/-- What holds of the first character holds of whatever stands first. -/
theorem forall_head?_cons {P : Char → Prop} {d : Char} (hfirst : P d) (more : List Char) :
    ∀ c ∈ (d :: more).head?, P c := by
  intro c hsame
  obtain rfl := Option.some.inj hsame
  exact hfirst

/-- Taking a run stops at the first character without the property. -/
theorem takeWhile_run (hinside : ∀ c ∈ run, p c = true) (hstops : ∀ c ∈ rest.head?, p c = false) :
    (run ++ rest).takeWhile p = run := by
  rw [List.takeWhile_append_of_pos hinside]
  cases rest with
  | nil => simp
  | cons c rest => simp [hstops c rfl]

/-- Dropping a run leaves the text from the first character without the property. -/
theorem dropWhile_run (hinside : ∀ c ∈ run, p c = true) (hstops : ∀ c ∈ rest.head?, p c = false) :
    (run ++ rest).dropWhile p = rest := by
  rw [List.dropWhile_append_of_pos hinside]
  cases rest with
  | nil => simp
  | cons c rest => simp [hstops c rfl]

/-- Behind a run the property fails. -/
theorem of_mem_head?_dropWhile {text : List Char} :
    ∀ c ∈ (text.dropWhile p).head?, p c = false := by
  intro c hfirst
  have hstopped := List.head?_dropWhile_not p text
  rw [Option.mem_def.mp hfirst] at hstopped
  simpa using hstopped

/-- A text is a run of other characters than one that does not stand in it. -/
theorem forall_ne_of_not_mem {d : Char} {text : List Char} (hfree : d ∉ text) :
    ∀ c ∈ text, decide (c ≠ d) = true :=
  fun _ hinside => decide_eq_true (ne_of_mem_of_not_mem hinside hfree)

/-- **A run is the longest.**  An initial part of a text whose characters all have the
property is an initial part of the run. -/
theorem isPrefix_run {part text : List Char} (hinitial : part <+: text)
    (hinside : ∀ c ∈ part, p c = true) : part <+: text.takeWhile p := by
  obtain ⟨rest, rfl⟩ := hinitial
  rw [List.takeWhile_append_of_pos hinside]
  exact List.prefix_append ..

/-- A run of a character that stands nowhere else in a text. -/
theorem getElem?_eq_some_iff_of_run {c : Char} {left right : List Char} (hbefore : c ∉ left)
    (hbehind : c ∉ right) (n i : Nat) :
    (left ++ List.replicate n c ++ right)[i]? = some c ↔ left.length ≤ i ∧ i < left.length + n := by
  have hsize : (left ++ List.replicate n c).length = left.length + n := by
    rw [List.length_append, List.length_replicate]
  constructor
  · intro hfound
    constructor
    · -- in front of the run stands no such character
      by_contra houtside
      rw [List.append_assoc, List.getElem?_append_left (Nat.lt_of_not_le houtside)] at hfound
      exact hbefore (List.mem_of_getElem? hfound)
    · -- nor does one behind it
      by_contra houtside
      rw [List.getElem?_append_right (by omega)] at hfound
      exact hbehind (List.mem_of_getElem? hfound)
  · rintro ⟨hreached, hinside⟩
    rw [List.getElem?_append_left (by omega), List.getElem?_append_right hreached,
      List.getElem?_replicate_of_lt (by omega)]

end Runs

/-! ## §2 Cuts at byte offsets -/

/-- The stretch between the byte lengths of two initial parts. -/
theorem sliceBytes?_middle (before middle after : List Char) :
    sliceBytes? (byteLength before) (byteLength (before ++ middle)) (before ++ (middle ++ after))
      = some middle := by
  have hle : byteLength before ≤ byteLength (before ++ middle) := by simp
  have hsize : byteLength (before ++ middle) - byteLength before = byteLength middle := by simp
  rw [sliceBytes?, if_pos hle, dropBytes?_append, Option.bind_some, hsize, takeBytes?_append]

/-- A cut that leaves a rest is made inside the text, at the start of that rest. -/
theorem byteLength_of_dropBytes? {n : Nat} {text rest : List Char}
    (hcut : dropBytes? n text = some rest) : byteLength text = n + byteLength rest := by
  -- along the cut: at its end, at the end of the text, at a character before the cut, and at one
  -- that the cut would go through
  fun_induction dropBytes? n text with
  | case1 text =>
    obtain rfl := Option.some.inj hcut
    exact (Nat.zero_add _).symm
  | case2 n => cases hcut
  | case3 n c text hfits ih =>
    rw [byteLength_cons, ih hcut]
    omega
  | case4 n c text hwide => cases hcut

/-- What a cut leaves is the end of the text. -/
theorem isSuffix_of_dropBytes? {n : Nat} {text rest : List Char}
    (hcut : dropBytes? n text = some rest) : rest <:+ text := by
  fun_induction dropBytes? n text with
  | case1 text =>
    obtain rfl := Option.some.inj hcut
    exact List.suffix_rfl
  | case2 n => cases hcut
  | case3 n c text hfits ih => exact (ih hcut).trans (List.suffix_cons c text)
  | case4 n c text hwide => cases hcut

/-- What a cut takes is the beginning of the text. -/
theorem isPrefix_of_takeBytes? {n : Nat} {text part : List Char}
    (hcut : takeBytes? n text = some part) : part <+: text := by
  fun_induction takeBytes? n text generalizing part with
  | case1 text =>
    obtain rfl := Option.some.inj hcut
    exact List.nil_prefix
  | case2 n => cases hcut
  | case3 n c text hfits ih =>
    obtain ⟨more, htaken, rfl⟩ := Option.map_eq_some_iff.mp hcut
    exact List.cons_prefix_cons.mpr ⟨rfl, ih htaken⟩
  | case4 n c text hwide => cases hcut

/-- A slice is a stretch of the text. -/
theorem isInfix_of_sliceBytes? {start stop : Nat} {text part : List Char}
    (hcut : sliceBytes? start stop text = some part) : part <:+: text := by
  rw [sliceBytes?] at hcut
  split at hcut
  · obtain ⟨rest, hdropped, htaken⟩ := Option.bind_eq_some_iff.mp hcut
    exact (isPrefix_of_takeBytes? htaken).isInfix.trans (isSuffix_of_dropBytes? hdropped).isInfix
  · cases hcut

/-- What a cut takes are the bytes before it. -/
theorem byteLength_of_takeBytes? {n : Nat} {text part : List Char}
    (hcut : takeBytes? n text = some part) : byteLength part = n := by
  fun_induction takeBytes? n text generalizing part with
  | case1 text =>
    obtain rfl := Option.some.inj hcut
    rfl
  | case2 n => cases hcut
  | case3 n c text hfits ih =>
    obtain ⟨more, htaken, rfl⟩ := Option.map_eq_some_iff.mp hcut
    rw [byteLength_cons, ih htaken]
    omega
  | case4 n c text hwide => cases hcut

/-- **A cut takes a part** if the text goes on behind that part, and the part has the bytes
before the cut. -/
theorem takeBytes?_eq_some_iff {n : Nat} {text part : List Char} :
    takeBytes? n text = some part ↔ ∃ rest, text = part ++ rest ∧ byteLength part = n := by
  constructor
  · intro hcut
    obtain ⟨rest, hwhole⟩ := isPrefix_of_takeBytes? hcut
    exact ⟨rest, hwhole.symm, byteLength_of_takeBytes? hcut⟩
  · rintro ⟨rest, rfl, rfl⟩
    exact takeBytes?_append part rest

/-- **A cut leaves a rest** if the text begins with a part that has the bytes before the cut,
and goes on with that rest. -/
theorem dropBytes?_eq_some_iff {n : Nat} {text rest : List Char} :
    dropBytes? n text = some rest ↔ ∃ part, text = part ++ rest ∧ byteLength part = n := by
  constructor
  · intro hcut
    obtain ⟨part, hwhole⟩ := isSuffix_of_dropBytes? hcut
    -- the part in front has the bytes that the rest lacks
    have hsize := byteLength_of_dropBytes? hcut
    rw [← hwhole, byteLength_append] at hsize
    exact ⟨part, hwhole.symm, Nat.add_right_cancel hsize⟩
  · rintro ⟨part, rfl, rfl⟩
    exact dropBytes?_append part rest

/-- **A slice** is the stretch that begins and ends at its two offsets. -/
theorem sliceBytes?_eq_some_iff {start stop : Nat} {text part : List Char} :
    sliceBytes? start stop text = some part ↔
      ∃ left right, text = left ++ (part ++ right) ∧ byteLength left = start ∧
        byteLength (left ++ part) = stop := by
  constructor
  · intro hcut
    rw [sliceBytes?] at hcut
    split at hcut
    · rename_i hordered
      -- a slice is the beginning of what is left behind the first offset
      obtain ⟨rest, hdropped, htaken⟩ := Option.bind_eq_some_iff.mp hcut
      obtain ⟨left, rfl, rfl⟩ := dropBytes?_eq_some_iff.mp hdropped
      obtain ⟨right, rfl, hsize⟩ := takeBytes?_eq_some_iff.mp htaken
      refine ⟨left, right, rfl, rfl, ?_⟩
      rw [byteLength_append, hsize]
      omega
    · cases hcut
  · rintro ⟨left, right, rfl, rfl, rfl⟩
    exact sliceBytes?_middle left part right

/-- An offset between two characters of a text, or at one of its ends. -/
def IsBoundary (text : List Char) (n : Nat) : Prop :=
  ∃ left right, text = left ++ right ∧ byteLength left = n

/-- A character takes one byte at least. -/
theorem length_le_byteLength (text : List Char) : text.length ≤ byteLength text := by
  induction text with
  | nil => exact Nat.le_refl _
  | cons c text ih =>
    have := c.utf8Size_pos
    rw [List.length_cons, byteLength_cons]
    omega

theorem byteLength_pos {text : List Char} (hinside : text ≠ []) : 0 < byteLength text := by
  cases text with
  | nil => exact absurd rfl hinside
  | cons c text =>
    have := c.utf8Size_pos
    simp only [byteLength_cons]
    omega

end MiniPascal
