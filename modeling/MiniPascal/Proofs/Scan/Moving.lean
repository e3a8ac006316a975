import MiniPascal.Proofs.Scan.Refinement
import Mathlib.Logic.Function.Iterate

/-!
# Moving a Cursor

A cursor moves over one character, or over a run: all characters from its place on that
have a property.  Here is what this means for the text and its bytes, wherever earlier
moves have led.

- `loops_skipWhile`: a run is passed by a loop of single moves;
- `textFrom?_eq_some_iff`: the text between an offset and the cursor;
- `skipWhile_longest`: all that holds of a run and of the slices that end at a cursor.
-/

namespace MiniPascal

/-! ## §1 Loops -/

/-- **A loop** goes round `n` times from `first` to `last` and stops there.  A round leads to
the next state; there is none where the loop stops. -/
inductive Loops {State : Type} (round : State → Option State) : Nat → State → State → Prop where
  | stop {last : State} (hstops : round last = none) : Loops round 0 last last
  | again {first next last : State} {n : Nat} (hgoes : round first = some next)
      (hmore : Loops round n next last) : Loops round (n + 1) first last

/-- **A loop ends** if each round leaves less to do, and it has no more rounds than there was
to do. -/
theorem exists_loops {State : Type} {round : State → Option State} (left : State → Nat)
    (hless : ∀ state next, round state = some next → left next < left state) (first : State) :
    ∃ n last, Loops round n first last ∧ n ≤ left first := by
  cases hgoes : round first with
  | none => exact ⟨0, first, .stop hgoes, Nat.zero_le _⟩
  | some next =>
    have hstep := hless first next hgoes
    obtain ⟨n, last, hmore, hbound⟩ := exists_loops left hless next
    exact ⟨n + 1, last, .again hgoes hmore, by omega⟩
termination_by left first

/-! ## §2 Where a cursor stands -/

/-- The longest initial part of a text whose characters all satisfy `p`. -/
structure IsLongestRun (p : Char → Bool) (run text : List Char) : Prop where
  initial : run <+: text
  all : ∀ c ∈ run, p c = true
  longest : ∀ other, other <+: text → (∀ c ∈ other, p c = true) → other.length ≤ run.length

theorem isLongestRun_takeWhile (p : Char → Bool) (text : List Char) :
    IsLongestRun p (text.takeWhile p) text :=
  ⟨List.takeWhile_prefix p, fun _ => List.mem_takeWhile_imp,
    fun _ hinitial hall => (isPrefix_run hinitial hall).length_le⟩

namespace Cursor

/-- The moves of a cursor. -/
inductive Move where
  | advance
  | skipWhile (p : Char → Bool)

/-- The cursor after one move. -/
def after (cursor : Cursor) : Move → Cursor
  | .advance => cursor.advance
  | .skipWhile p => cursor.skipWhile p

/-- The cursor after several moves. -/
def run (cursor : Cursor) (moves : List Move) : Cursor :=
  moves.foldl after cursor

/-- The cursor has passed `passed` and has the rest of the text before it. -/
structure Stands (source passed : List Char) (cursor : Cursor) : Prop where
  source_eq : cursor.source = source
  whole : source = passed ++ cursor.rest
  location : cursor.location = Location.start.advance passed

variable {source passed : List Char} {cursor : Cursor}

theorem stands_start (source : List Char) : Stands source [] (start source) :=
  ⟨rfl, rfl, rfl⟩

theorem Stands.drop (hstands : Stands source passed cursor) (n : Nat) :
    Stands source (passed ++ cursor.rest.take n) (cursor.drop n) := by
  refine ⟨hstands.source_eq, ?_, ?_⟩
  · show source = passed ++ cursor.rest.take n ++ cursor.rest.drop n
    rw [List.append_assoc, List.take_append_drop]
    exact hstands.whole
  · show cursor.location.advance _ = _
    rw [hstands.location, Location.advance_append]

theorem Stands.after (hstands : Stands source passed cursor) (move : Move) :
    ∃ passed', Stands source passed' (cursor.after move) := by
  cases move with
  | advance => exact ⟨_, hstands.drop 1⟩
  | skipWhile p => exact ⟨_, hstands.drop (cursor.rest.takeWhile p).length⟩

theorem Stands.run (hstands : Stands source passed cursor) (moves : List Move) :
    ∃ passed', Stands source passed' (cursor.run moves) := by
  -- by induction on the moves, from wherever the earlier ones have led
  induction moves generalizing cursor passed with
  | nil => exact ⟨passed, hstands⟩
  | cons move moves ih =>
    obtain ⟨passed', hnext⟩ := hstands.after move
    exact ih hnext

/-- **Every cursor stands somewhere in its text.** -/
theorem exists_stands_run (source : List Char) (moves : List Move) :
    ∃ passed, Stands source passed ((start source).run moves) :=
  (stands_start source).run moves

theorem Stands.position (hstands : Stands source passed cursor) :
    cursor.position = byteLength passed := by
  rw [Cursor.position, hstands.location, offset_advance_start]

/-- What stands at the offset of a cursor is the rest of its text. -/
theorem Stands.ahead (hstands : Stands source passed cursor) :
    dropBytes? cursor.position source = some cursor.rest := by
  rw [hstands.position, hstands.whole]
  exact dropBytes?_append ..

/-! ## §3 Runs -/

/-- One round of the loop over a run: a character that satisfies `p` is passed. -/
def pass? (p : Char → Bool) (cursor : Cursor) : Option Cursor :=
  if cursor.current?.any p then some cursor.advance else none

/-- **A run is passed by a loop** that moves over one of its characters in each round. -/
theorem loops_skipWhile (p : Char → Bool) (cursor : Cursor) :
    Loops (pass? p) (cursor.rest.takeWhile p).length cursor (cursor.skipWhile p) := by
  -- along the rest of the text, which is shorter by a character after each round
  generalize hahead : cursor.rest = rest
  induction rest generalizing cursor with
  | nil =>
    have hstops : cursor.current?.any p = false := by rw [current?, hahead]; rfl
    rw [skipWhile_eq_advance, hstops]
    exact .stop (by rw [pass?, hstops]; rfl)
  | cons c rest ih =>
    have hhere : cursor.current?.any p = p c := by rw [current?, hahead]; rfl
    rw [skipWhile_eq_advance, hhere, List.takeWhile_cons]
    by_cases hc : p c = true
    · have hnext : cursor.advance.rest = rest := congrArg (List.drop 1) hahead
      rw [if_pos hc, if_pos hc]
      exact .again (by rw [pass?, hhere, if_pos hc]) (ih cursor.advance hnext)
    · rw [if_neg hc, if_neg hc]
      exact .stop (by rw [pass?, hhere, if_neg hc])

/-- Single moves add up. -/
theorem iterate_advance (cursor : Cursor) (n : Nat) : advance^[n] cursor = cursor.drop n := by
  induction n with
  | zero => exact cursor.drop_zero.symm
  | succ n ih => rw [Function.iterate_succ_apply', ih, advance, drop_drop]

/-! ## §4 Slices -/

/-- **The text from an offset to a cursor** is an end of what the cursor has passed. -/
theorem Stands.textFrom?_eq_some_iff (hstands : Stands source passed cursor) {n : Nat}
    {text : List Char} :
    cursor.textFrom? n = some text ↔ ∃ left, passed = left ++ text ∧ byteLength left = n := by
  rw [textFrom?, hstands.source_eq, hstands.position, sliceBytes?_eq_some_iff]
  constructor
  · rintro ⟨left, right, hwhole, hstart, hstop⟩
    -- a text has one initial part of each size
    have hhere := takeBytes?_append passed cursor.rest
    have hthere := takeBytes?_append (left ++ text) right
    rw [← hstands.whole] at hhere
    rw [List.append_assoc, ← hwhole, hstop] at hthere
    exact ⟨left, Option.some.inj (hhere.symm.trans hthere), hstart⟩
  · rintro ⟨left, rfl, hstart⟩
    exact ⟨left, cursor.rest, hstands.whole.trans (List.append_assoc ..), hstart, rfl⟩

/-- There is such a text for the boundaries that are not behind the cursor. -/
theorem Stands.exists_textFrom?_iff (hstands : Stands source passed cursor) {n : Nat} :
    (∃ text, cursor.textFrom? n = some text) ↔ n ≤ cursor.position ∧ IsBoundary source n := by
  constructor
  · rintro ⟨text, hfound⟩
    obtain ⟨left, rfl, rfl⟩ := hstands.textFrom?_eq_some_iff.mp hfound
    refine ⟨?_, left, text ++ cursor.rest, ?_, rfl⟩
    · rw [hstands.position, byteLength_append]
      exact Nat.le_add_right ..
    · rw [← List.append_assoc]
      exact hstands.whole
  · rintro ⟨hreached, left, right, hwhole, rfl⟩
    rw [hstands.position] at hreached
    -- one of the two initial parts of the text continues the other
    rcases List.append_eq_append_iff.mp (hstands.whole.symm.trans hwhole) with
      ⟨more, rfl, -⟩ | ⟨text, rfl, -⟩
    · have hnone : more = [] := by
        by_contra hinside
        have := byteLength_pos hinside
        rw [byteLength_append] at hreached
        omega
      refine ⟨[], hstands.textFrom?_eq_some_iff.mpr ⟨passed ++ more, ?_, rfl⟩⟩
      rw [hnone, List.append_nil, List.append_nil]
    · exact ⟨text, hstands.textFrom?_eq_some_iff.mpr ⟨left, rfl, rfl⟩⟩

/-- Such a text and what stands before and behind it are the whole text. -/
theorem Stands.exists_parts (hstands : Stands source passed cursor) {n : Nat}
    (hinside : n ≤ cursor.position ∧ IsBoundary source n) :
    ∃ left text right, takeBytes? n source = some left ∧ cursor.textFrom? n = some text ∧
      dropBytes? cursor.position source = some right ∧ left ++ text ++ right = source := by
  obtain ⟨text, hfound⟩ := hstands.exists_textFrom?_iff.mpr hinside
  obtain ⟨left, rfl, hsize⟩ := hstands.textFrom?_eq_some_iff.mp hfound
  refine ⟨left, text, cursor.rest, ?_, hfound, hstands.ahead, hstands.whole.symm⟩
  have hwhole := hstands.whole
  rw [List.append_assoc] at hwhole
  exact takeBytes?_eq_some_iff.mpr ⟨_, hwhole, hsize⟩

end Cursor

/-! ## §5 Moving by offsets -/

namespace CheckedCursor

open Cursor (Move)

/-- The cursor after one move. -/
def after? (checked : CheckedCursor) : Move → Option CheckedCursor
  | .advance => checked.advance?
  | .skipWhile p => checked.eatWhile? p

/-- The cursor after several moves, if none of them fails. -/
def run? (checked : CheckedCursor) (moves : List Move) : Option CheckedCursor :=
  moves.foldlM after? checked

variable {checked : CheckedCursor} {cursor : Cursor}

theorem Tracks.after (htracks : checked.Tracks cursor) (move : Move) :
    ∃ next, checked.after? move = some next ∧ next.Tracks (cursor.after move) := by
  cases move with
  | advance => exact htracks.advance
  | skipWhile p => exact htracks.eatWhile p

theorem Tracks.run (htracks : checked.Tracks cursor) (moves : List Move) :
    ∃ last, checked.run? moves = some last ∧ last.Tracks (cursor.run moves) := by
  induction moves generalizing checked cursor with
  | nil => exact ⟨checked, rfl, htracks⟩
  | cons move moves ih =>
    obtain ⟨next, hstep, hkeeps⟩ := htracks.after move
    obtain ⟨last, hrest, hfurther⟩ := ih hkeeps
    refine ⟨last, ?_, hfurther⟩
    rw [run?, List.foldlM_cons, hstep]
    exact hrest

theorem Tracks.textFrom? (htracks : checked.Tracks cursor) :
    checked.textFrom? = cursor.textFrom? := by
  funext n
  rw [CheckedCursor.textFrom?, Cursor.textFrom?, htracks.position, htracks.source]

end CheckedCursor

/-! ## §6 Every cursor -/

namespace Cursor

/-- **Skipping passes the longest run**, wherever earlier moves have led.  A loop of single
moves passes one character after the other, and the slice between the two places is the run.
From any offset there is a slice up to the cursor, if a character begins there and not behind
the cursor; with what stands before and behind it, it is the whole text.  A cursor that has only
an offset and counters of 32 bits makes the same moves and cuts the same slices. -/
theorem skipWhile_longest (source : List Char) (moves : List Move) (p : Char → Bool) :
    let here := (start source).run moves
    let behind := here.skipWhile p
    (∃ run rest, dropBytes? here.position source = some (run ++ rest) ∧
      IsLongestRun p run (run ++ rest) ∧
      dropBytes? behind.position source = some rest ∧
      Loops (pass? p) run.length here behind ∧
      advance^[run.length] here = behind ∧
      behind.textFrom? here.position = some run) ∧
    (∀ n,
      (n ≤ here.position ∧ IsBoundary source n →
        ∃ left text right, takeBytes? n source = some left ∧ here.textFrom? n = some text ∧
          dropBytes? here.position source = some right ∧ left ++ text ++ right = source) ∧
      (¬(n ≤ here.position ∧ IsBoundary source n) → here.textFrom? n = none)) ∧
    (source.length < UInt32.size - 1 →
      ∃ checked after, (CheckedCursor.start source).run? moves = some checked ∧
        checked.eatWhile? p = some after ∧ after.Tracks behind ∧
        checked.textFrom? = here.textFrom? ∧ after.textFrom? = behind.textFrom?) := by
  intro here behind
  obtain ⟨passed, hstands⟩ := exists_stands_run source moves
  have hfurther : Stands source _ behind := hstands.drop (here.rest.takeWhile p).length
  -- as many characters are passed as the run has, and they are the run
  have hrun : here.rest.take (here.rest.takeWhile p).length = here.rest.takeWhile p :=
    (List.prefix_iff_eq_take.mp (List.takeWhile_prefix p)).symm
  refine ⟨⟨here.rest.takeWhile p, here.rest.dropWhile p, ?_, ?_, ?_, ?_, ?_, ?_⟩, ?_, ?_⟩
  · rw [List.takeWhile_append_dropWhile]
    exact hstands.ahead
  · rw [List.takeWhile_append_dropWhile]
    exact isLongestRun_takeWhile p here.rest
  · rw [← rest_skipWhile]
    exact hfurther.ahead
  · -- the loop over the run, and as many single moves
    exact loops_skipWhile p here
  · exact iterate_advance here _
  · rw [hrun] at hfurther
    exact hfurther.textFrom?_eq_some_iff.mpr ⟨passed, rfl, hstands.position.symm⟩
  · intro n
    constructor
    · exact hstands.exists_parts
    · -- where no boundary is, or only one behind the cursor, nothing can be cut
      intro houtside
      by_contra hfound
      exact houtside (hstands.exists_textFrom?_iff.mp (Option.ne_none_iff_exists'.mp hfound))
  · -- the checked cursor tracks this one along all moves, and so it cuts where this one does
    intro hshort
    have hroom : source.length + 1 < UInt32.size := by omega
    obtain ⟨checked, hmoved, htracks⟩ := (CheckedCursor.tracks_start hroom).run moves
    obtain ⟨after, heaten, hlast⟩ := htracks.eatWhile p
    exact ⟨checked, after, hmoved, heaten, hlast, htracks.textFrom?, hlast.textFrom?⟩

/-- Behind a run of characters that take two bytes each: a character begins at offset three,
and none at offset two. -/
theorem skipWhile_longest_twoBytes :
    let source := "aé²²\n".toList
    let here := (start source).run [.advance, .skipWhile (· ≠ '\n')]
    here.position = 7 ∧ here.textFrom? 2 = none ∧
      (∃ left text right, takeBytes? 3 source = some left ∧ here.textFrom? 3 = some text ∧
        dropBytes? here.position source = some right ∧ left ++ text ++ right = source) ∧
      ∃ checked after,
        (CheckedCursor.start source).run? [.advance, .skipWhile (· ≠ '\n')] = some checked ∧
        checked.eatWhile? isBlank = some after ∧ after.Tracks (here.skipWhile isBlank) ∧
        checked.textFrom? = here.textFrom? ∧
        after.textFrom? = (here.skipWhile isBlank).textFrom? := by
  intro source here
  obtain ⟨-, hslices, hchecked⟩ :=
    skipWhile_longest source [.advance, .skipWhile (· ≠ '\n')] isBlank
  have hinside : ¬IsBoundary source 2 := by
    rintro ⟨left, right, hwhole, hsize⟩
    have hcut := takeBytes?_eq_some_iff.mpr ⟨right, hwhole, hsize⟩
    have hnoCut : takeBytes? 2 source = none := by decide
    rw [hnoCut] at hcut
    cases hcut
  refine ⟨by decide, (hslices 2).2 fun hboth => hinside hboth.2, (hslices 3).1 ⟨by decide, ?_⟩,
    hchecked (by decide)⟩
  exact ⟨"aé".toList, "²²\n".toList, by decide, by decide⟩

end Cursor

end MiniPascal
