/-
**Tokens stand one after another.**

Each token of a text begins after the one before it, and the tokens end after the last of them: at
the end of the input, or at the position of the error that ends them. So a place in the token
sequence can be told by its offset. A cursor has passed over the tokens that begin before its own
offset, and over no others (`Cursor.Past`).

* `Lexing.ofText_rising`: the offsets of all tokens of a text, and of their end.
* `Cursor.Past.before`: what a cursor has passed over begins before it.
* `Cursor.Past.next`, `Cursor.Past.next_error`: passing over one token more.
-/

import Formula.Proofs.Scanner.Errors

namespace Formula

theorem byteLength_pos {characters : List Char} (some_character : characters ≠ []) :
    0 < byteLength characters := by
  cases characters with
  | nil => contradiction
  | cons character rest =>
    rw [byteLength_cons]
    exact Nat.add_pos_left character.utf8Size_pos _

/-- To leave less of the text is to be further on in it. -/
theorem Spot.LeadsTo.offset_lt {spot after : Spot} (leads : spot.LeadsTo after)
    (shorter : after.rest.length < spot.rest.length) : spot.offset < after.offset := by
  obtain ⟨passed, same, offset⟩ := leads
  have some_passed : passed ≠ [] := by
    rintro rfl
    rw [same] at shorter
    exact Nat.lt_irrefl _ shorter
  rw [offset]
  exact Nat.lt_add_of_pos_right (byteLength_pos some_passed)

/-- An error is reported where the reading begins, or after that. -/
theorem Unreadable.start_le {offset : Nat} {text rest : List Char} {error : ParseError}
    (unreadable : Unreadable offset text error rest) : offset ≤ error.position := by
  cases unreadable with
  | escape => exact Nat.le_add_right ..
  | _ => exact Nat.le_refl offset

/-! ### Offsets -/

namespace Lexing

/-- The offset at which tokens end: that of the end of the input, or the position of the error. -/
def stop (lexing : Lexing) : Nat :=
  match lexing.ending with
  | .ok stop => stop
  | .error error => error.position

/-- The offsets of tokens and of their end. -/
def offsets (lexing : Lexing) : List Nat :=
  lexing.tokens.map Located.start ++ [lexing.stop]

/-- Holds of tokens that stand one after another, from an offset on, and end after the last of
them. -/
structure RisesFrom (low : Nat) (lexing : Lexing) : Prop where
  rising : lexing.offsets.Pairwise (· < ·)
  above : ∀ offset ∈ lexing.offsets, low ≤ offset

theorem risesFrom_nothing {low : Nat} {ending : Except ParseError Nat}
    (above : low ≤ stop ⟨[], ending⟩) : RisesFrom low ⟨[], ending⟩ :=
  ⟨List.pairwise_singleton _ _, List.forall_mem_singleton.mpr above⟩

/-- A token stands before those that rise from an offset after it. -/
theorem RisesFrom.cons {low next : Nat} {located : Located} {rest : Lexing}
    (rises : rest.RisesFrom next) (above : low ≤ located.start) (before : located.start < next) :
    RisesFrom low ⟨located :: rest.tokens, rest.ending⟩ := by
  have later : ∀ offset ∈ rest.offsets, located.start < offset := fun offset inside =>
    Nat.lt_of_lt_of_le before (rises.above offset inside)
  refine ⟨List.pairwise_cons.mpr ⟨later, rises.rising⟩, List.forall_mem_cons.mpr ⟨above, ?_⟩⟩
  exact fun offset inside => Nat.le_trans above (Nat.le_of_lt (later offset inside))

end Lexing

namespace Scanner

/-- A reading begins at the spot of the scanner, or after it. -/
theorem offset_le_start (scanner : Scanner) : scanner.spot.offset ≤ scanner.next.1.start :=
  scanner.tokenSpot_leads.offset_le

/-- A reading that is not the last one begins before the spot that it leads to. -/
theorem start_lt_offset {scanner : Scanner} (more : scanner.next.1.isLast = false) :
    scanner.next.1.start < scanner.next.2.spot.offset :=
  (scan_leads scanner.tokenSpot).offset_lt (scan_length_lt scanner.tokenSpot rfl _ more)

/-- One reading keeps the order, if what is read after a token is in order. -/
theorem rises_next (scanner : Scanner)
    (later : scanner.next.1.isLast = false →
      scanner.next.2.tape.lexing.RisesFrom scanner.next.2.spot.offset) :
    scanner.tape.lexing.RisesFrom scanner.spot.offset := by
  have above := scanner.offset_le_start
  have errors (error : ParseError) (failed : scanner.next.1.outcome = .error error) :
      scanner.next.1.start ≤ error.position := by
    obtain ⟨rest, unreadable⟩ := next_error_iff.mp failed
    exact unreadable.start_le
  have further (more : scanner.next.1.isLast = false) :
      scanner.next.1.start < scanner.next.2.spot.offset := start_lt_offset more
  rw [lexing_tape]
  generalize scanner.next.1 = read at above errors further later ⊢
  obtain ⟨start, error | token⟩ := read
  · exact Lexing.risesFrom_nothing (Nat.le_trans above (errors error rfl))
  · by_cases ended : token = .endOfInput
    · subst ended
      exact Lexing.risesFrom_nothing above
    · have more : (Scanned.mk start (.ok token)).isLast = false := by
        cases token <;> first | rfl | contradiction
      rw [Lexing.add_token ended]
      exact (later more).cons above (further more)

/-- What a scanner reads stands one after another, from its spot on. -/
theorem tape_rises (scanner : Scanner) :
    scanner.tape.lexing.RisesFrom scanner.spot.offset := by
  induction scanner using tape_induction with
  | last scanner last => exact scanner.rises_next fun more => by cases last.symm.trans more
  | more scanner more rest => exact scanner.rises_next fun _ => rest

/-- No two readings begin at one place, those that are no tokens included. -/
theorem tape_items_rise (scanner : Scanner) :
    (∀ item ∈ scanner.tape.items, scanner.spot.offset ≤ item.start) ∧
      scanner.tape.items.Pairwise fun earlier later => earlier.start < later.start := by
  induction scanner using tape_induction with
  | last scanner last =>
    rw [tape_of_last last]
    exact ⟨List.forall_mem_nil _, List.Pairwise.nil⟩
  | more scanner more rest =>
    obtain ⟨above, rising⟩ := rest
    have later : ∀ item ∈ scanner.next.2.tape.items, scanner.next.1.start < item.start :=
      fun item inside => Nat.lt_of_lt_of_le (start_lt_offset more) (above item inside)
    rw [tape_of_more more]
    refine ⟨List.forall_mem_cons.mpr ⟨scanner.offset_le_start, fun item inside => ?_⟩, ?_⟩
    · exact Nat.le_trans scanner.offset_le_start (Nat.le_of_lt (later item inside))
    · exact List.pairwise_cons.mpr ⟨later, rising⟩

end Scanner

/-- **The tokens of a text stand one after another**, and end after the last of them. -/
theorem Lexing.ofText_rising (text : String) (comments : Bool) :
    (ofText text comments).offsets.Pairwise (· < ·) :=
  (Scanner.tape_rises _).rising

/-! ### Cursors -/

namespace Cursor

/-- Holds of a cursor in a text, after the tokens that it has passed over. -/
structure Past (whole : Lexing) (passed : List Located) (cursor : Cursor) : Prop where
  placed : cursor.Placed
  split : whole = ⟨passed ++ cursor.lexing.tokens, cursor.lexing.ending⟩
  rising : whole.offsets.Pairwise (· < ·)
  atEnd : cursor.token = .endOfInput → cursor.tape.last.start = cursor.start

/-- The end of the input is the last reading of the tape. -/
theorem Placed.start_of_end {cursor after : Cursor} (placed : cursor.Placed)
    (next : cursor.next = .ok after) (ended : after.token = .endOfInput) :
    after.tape.last.start = after.start := by
  rcases placed.next_cases next with ⟨start, items, more, -⟩ | ⟨-, nothing, tape, -⟩
  · exact absurd ended more
  · obtain ⟨start, token, _, found, rfl⟩ := next_eq_ok next
    rcases Tape.next_cases found with ⟨items, some_item, -⟩ | ⟨-, last, -⟩
    · cases nothing.symm.trans some_item
    · rw [tape, last]

/-- The first offset from a cursor on is its own. -/
theorem offsets_lexing (cursor : Cursor) :
    ∃ later, cursor.lexing.offsets = cursor.start :: later := by
  by_cases ended : cursor.token = .endOfInput
  · rw [lexing_of_end ended]
    exact ⟨[], rfl⟩
  · rw [lexing_of_token ended]
    exact ⟨_, rfl⟩

theorem ofText?_past {text : String} {options : Options} {cursor : Cursor}
    (found : ofText? text options = .ok cursor) :
    cursor.Past (.ofText text options.comments) [] := by
  obtain ⟨placed, -, lexing⟩ := ofText?_ok found
  exact ⟨placed, lexing.symm, Lexing.ofText_rising text options.comments,
    (placed_before text options).start_of_end (ofText?_eq text options ▸ found)⟩

namespace Past

variable {whole : Lexing} {passed : List Located} {cursor after : Cursor}

/-- The depth has no part in what has been passed over. -/
theorem setDepth (past : cursor.Past whole passed) (depth : Nat) :
    ({ cursor with depth } : Cursor).Past whole passed :=
  ⟨past.placed.setDepth depth, past.split, past.rising, past.atEnd⟩

theorem tokens (past : cursor.Past whole passed) :
    whole.tokens = passed ++ cursor.lexing.tokens :=
  congrArg Lexing.tokens past.split

theorem offsets (past : cursor.Past whole passed) :
    whole.offsets = passed.map Located.start ++ cursor.lexing.offsets := by
  rw [past.split, Lexing.offsets, List.map_append, List.append_assoc]
  rfl

/-- What a cursor has passed over begins before it. -/
theorem before (past : cursor.Past whole passed) :
    ∀ located ∈ passed, located.start < cursor.start := by
  intro located inside
  obtain ⟨later, here⟩ := cursor.offsets_lexing
  have rising := past.rising
  rw [past.offsets, here, List.pairwise_append] at rising
  exact rising.2.2 _ (List.mem_map_of_mem inside) _ List.mem_cons_self

/-- A cursor that goes on has passed over its token. -/
theorem next (past : cursor.Past whole passed) (next : cursor.next = .ok after)
    (more : cursor.token ≠ .endOfInput) :
    after.Past whole (passed ++ [⟨cursor.start, cursor.token⟩]) := by
  refine ⟨past.placed.next next, ?_, past.rising, past.placed.start_of_end next⟩
  rw [past.split, lexing_of_token more, ← lexing_next past.placed next, List.append_assoc]
  rfl

/-- What cannot be read is reported after the token at the cursor. -/
theorem next_error {error : ParseError} (past : cursor.Past whole passed)
    (failed : cursor.next = .error error) (more : cursor.token ≠ .endOfInput) :
    cursor.start < error.position := by
  have rising := past.rising
  rw [past.offsets, lexing_of_token more, lexing_next_error failed, List.pairwise_append] at rising
  exact (List.pairwise_cons.mp rising.2.1).1 _ (List.mem_singleton_self _)

/-- At the end of the input a cursor goes on and stays where it is. -/
theorem next_of_end (past : cursor.Past whole passed) (ended : cursor.token = .endOfInput) :
    ∃ after, cursor.next = .ok after ∧ after.start = cursor.start := by
  obtain ⟨nothing, again⟩ := past.placed.atEnd ended
  have same := past.atEnd ended
  obtain ⟨token, start, ⟨items, ⟨begin, outcome⟩⟩, depth⟩ := cursor
  cases nothing
  cases again
  exact ⟨_, rfl, same⟩

/-- A cursor that passes over tokens has passed over them. -/
theorem passes {tokens : List Token} (past : cursor.Past whole passed)
    (passes : cursor.Passes tokens after) (more : Token.endOfInput ∉ tokens) :
    ∃ others : List Located, others.map Located.token = tokens ∧
      after.Past whole (passed ++ others) := by
  induction tokens generalizing cursor passed with
  | nil =>
    cases show cursor = after from passes
    exact ⟨[], rfl, by rwa [List.append_nil]⟩
  | cons token tokens step =>
    obtain ⟨rfl, middle, next, rest⟩ := passes
    obtain ⟨here, later⟩ := not_or.mp (mt List.mem_cons.mpr more)
    obtain ⟨others, rfl, there⟩ := step (past.next next (Ne.symm here)) rest later
    rw [List.append_assoc] at there
    exact ⟨_, rfl, there⟩

end Past

end Cursor

end Formula
