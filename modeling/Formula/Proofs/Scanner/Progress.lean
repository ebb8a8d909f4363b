/-
**Reading on and on.**

A scanner can be asked for the next reading any number of times, after errors and after the end of
the input as well (`Scanner.after`, `Scanner.reading`). It always stands at a place of its text
(`Spot.At`): the offset counts the bytes of the characters before, and the rest is what comes after
them. A reading begins at a place that is not before the last one, and goes on from there by a
character at least, unless it is the end of the input or a character that begins no token; such a
reading stays where it is, and is repeated for ever.

A stepper, which counts its steps, is always at the place of the scanner. So it has never made more
steps than there are characters.

* `Scanner.next_at`, `Scanner.next_of_last`: what one reading does.
* `Stepper.after_ofText`: the stepper is where the scanner is.
* `Scanner.ofText_readings`: what any number of readings do.
-/

import Formula.Proofs.Scanner.Stepping

namespace Formula

/-! ### Places -/

/-- Holds of the spot in a text before which so many characters lie. -/
structure Spot.At (text : List Char) (position : Nat) (spot : Spot) : Prop where
  within : position ≤ text.length
  offset_eq : spot.offset = byteLength (text.take position)
  rest_eq : spot.rest = text.drop position

namespace Spot

variable {text : List Char} {position : Nat} {spot after : Spot}

theorem at_start (text : String) : (start text).At text.toList 0 :=
  ⟨Nat.zero_le _, rfl, rfl⟩

/-- Passing over characters leads to a later place. -/
theorem At.leads (here : spot.At text position) (leads : spot.LeadsTo after) :
    ∃ later, position ≤ later ∧ after.At text later := by
  obtain ⟨passed, same, offset⟩ := leads
  rw [here.rest_eq] at same
  have rest : text.drop (position + passed.length) = after.rest := by
    rw [← List.drop_drop, same, List.drop_left]
  refine ⟨position + passed.length, Nat.le_add_right .., ?_, ?_, rest.symm⟩
  · have lengths := congrArg List.length same
    rw [List.length_drop, List.length_append] at lengths
    have within := here.within
    omega
  · rw [offset, here.offset_eq, List.take_add, same, List.take_left, byteLength_append]

/-- The fewer characters are left, the later the place. -/
theorem At.length_rest (here : spot.At text position) :
    spot.rest.length = text.length - position := by
  rw [here.rest_eq, List.length_drop]

/-- A spot is at one place. -/
theorem At.unique {other : Nat} (here : spot.At text position) (there : spot.At text other) :
    position = other := by
  have same := here.length_rest.symm.trans there.length_rest
  have within := here.within
  have within' := there.within
  omega

end Spot

theorem Scanned.isLast_iff {scanned : Scanned} :
    scanned.isLast = true ↔
      scanned.outcome = .ok .endOfInput ∨ ∃ character position,
        scanned.outcome = .error ⟨.unexpectedCharacter character, position⟩ := by
  unfold isLast
  constructor
  · intro last
    split at last
    · rename_i ended
      exact .inl ended
    · rename_i character position unexpected
      exact .inr ⟨character, position, unexpected⟩
    · cases last
  · rintro (ended | ⟨character, position, unexpected⟩)
    · rw [ended]
    · rw [unexpected]

namespace Scanner

/-! ### One reading -/

/-- Where a token begins, nothing more is passed over. -/
theorem pastTrivia_again (comments inComment : Bool) (offset : Nat) (text : List Char) :
    pastTrivia comments false (pastTrivia comments inComment offset text).offset
        (pastTrivia comments inComment offset text).rest =
      pastTrivia comments inComment offset text := by
  fun_induction pastTrivia comments inComment offset text with
  | case1 => rfl
  | case2 | case3 | case4 => assumption
  | case5 inComment offset character rest outside solid begins =>
    rw [pastTrivia, if_neg Bool.false_ne_true, if_neg solid, if_neg begins]

theorem scanNumber_not_last (start : Nat) (spot : Spot) :
    (Scanned.mk start (scanNumber spot).1).isLast = false := by
  simp only [scanNumber]
  split
  · rfl
  · split <;> rfl

theorem scanContent_not_last (start opening : Nat) (quote : Char) (offset : Nat)
    (content text : List Char) :
    (Scanned.mk start (scanContent opening quote offset content text).1).isLast = false := by
  fun_induction scanContent opening quote offset content text with
  | case1 | case2 | case3 | case5 => rfl
  | case4 | case6 => assumption

theorem scanWord_not_last (start : Nat) (spot : Spot) :
    (Scanned.mk start (scanWord spot).1).isLast = false := by
  simp only [scanWord, Token.ofWord]
  split <;> rfl

theorem mark?_not_last (start : Nat) {text : List Char} {token : Token} {width : Nat}
    (found : mark? text = some (token, width)) :
    (Scanned.mk start (.ok token)).isLast = false := by
  unfold mark? at found
  split at found <;> cases found <;> rfl

/-- A last reading stays where it begins: at the end, or at a character that begins no token. -/
theorem scan_of_last {spot : Spot} {start : Nat}
    (last : (Scanned.mk start (scan spot).1).isLast = true) :
    (scan spot).2 = spot ∧
      ((scan spot).1 = .ok .endOfInput ∧ spot.rest = [] ∨
        ∃ character, (scan spot).1 = .error ⟨.unexpectedCharacter character, spot.offset⟩) := by
  unfold scan at last ⊢
  split
  · rename_i ended
    exact ⟨rfl, .inl ⟨rfl, ended⟩⟩
  · rename_i character rest here
    simp only [here] at last
    by_cases digit : character.isDigit = true
    · rw [if_pos digit, scanNumber_not_last] at last
      cases last
    rw [if_neg digit] at last ⊢
    by_cases letter : isNameStart character = true
    · rw [if_pos letter, scanWord_not_last] at last
      cases last
    rw [if_neg letter] at last ⊢
    by_cases quote : (character == '"' || character == '\'') = true
    · rw [if_pos quote, scanContent_not_last] at last
      cases last
    rw [if_neg quote] at last ⊢
    cases found : mark? (character :: rest) with
    | some mark =>
      rw [found] at last
      dsimp only at last
      rw [mark?_not_last start found] at last
      cases last
    | none => exact ⟨rfl, .inr ⟨character, rfl⟩⟩

/-- What one reading does in its text: it begins where nothing but trivia has been passed over, and
goes on from there, unless it is a last one. -/
theorem next_at {text : List Char} {position : Nat} {scanner : Scanner}
    (here : scanner.spot.At text position) :
    ∃ begins ends, position ≤ begins ∧ scanner.tokenSpot.At text begins ∧
      scanner.next.2.spot.At text ends ∧
      (scanner.next.1.isLast = false ∧ begins < ends ∨
        scanner.next.1.isLast = true ∧ begins = ends) := by
  obtain ⟨begins, later, token⟩ := here.leads scanner.tokenSpot_leads
  obtain ⟨ends, further, left⟩ := token.leads (scan_leads scanner.tokenSpot)
  refine ⟨begins, ends, later, token, left, ?_⟩
  have before := token.length_rest
  have after : scanner.next.2.spot.rest.length = text.length - ends := left.length_rest
  cases kind : scanner.next.1.isLast with
  | false =>
    have shorter : scanner.next.2.spot.rest.length < scanner.tokenSpot.rest.length :=
      scan_length_lt scanner.tokenSpot rfl _ kind
    have within := left.within
    exact .inl ⟨rfl, by omega⟩
  | true =>
    have same : scanner.next.2.spot = scanner.tokenSpot := (scan_of_last kind).1
    rw [same] at after
    have within := token.within
    have within' := left.within
    exact .inr ⟨rfl, by omega⟩

/-- A reading goes on from where it begins, or it is the end of the input, at the end of the text,
or a character that begins no token. -/
theorem next_goes_on {text : List Char} {position ends : Nat} {scanner : Scanner}
    (here : scanner.spot.At text position) (there : scanner.next.2.spot.At text ends) :
    ∃ begins, position ≤ begins ∧ begins ≤ ends ∧
      scanner.next.1.start = byteLength (text.take begins) ∧
      (begins < ends ∨
        scanner.next.1.outcome = .ok .endOfInput ∧ scanner.next.1.start = byteLength text ∨
        ∃ character, scanner.next.1.outcome =
          .error ⟨.unexpectedCharacter character, scanner.next.1.start⟩) := by
  obtain ⟨begins, stop, later, token, left, moved⟩ := next_at here
  obtain rfl := left.unique there
  have start : scanner.next.1.start = byteLength (text.take begins) := token.offset_eq
  rcases moved with ⟨-, less⟩ | ⟨last, rfl⟩
  · exact ⟨begins, later, Nat.le_of_lt less, start, .inl less⟩
  refine ⟨begins, later, Nat.le_refl _, start, .inr ?_⟩
  rcases (scan_of_last last).2 with ⟨ended, nothing⟩ | unexpected
  · have all : text.take begins = text :=
      List.take_of_length_le (List.drop_eq_nil_iff.mp (token.rest_eq ▸ nothing))
    rw [all] at start
    exact .inl ⟨ended, start⟩
  · exact .inr unexpected

/-- A last reading is repeated for ever. -/
theorem next_of_last {scanner : Scanner} (last : scanner.next.1.isLast = true) :
    scanner.next.2.next = scanner.next := by
  have stays : (scan scanner.tokenSpot).2 = scanner.tokenSpot := (scan_of_last last).1
  have again : scanner.next.2.tokenSpot = scanner.tokenSpot := by
    show pastTrivia scanner.comments false (scan scanner.tokenSpot).2.offset
      (scan scanner.tokenSpot).2.rest = _
    rw [stays]
    exact pastTrivia_again ..
  unfold next at again ⊢
  rw [again]

/-! ### Any number of readings -/

/-- The scanner after so many readings. -/
def after (scanner : Scanner) : Nat → Scanner
  | 0 => scanner
  | count + 1 => (scanner.after count).next.2

/-- The reading that comes after so many others. -/
def reading (scanner : Scanner) (count : Nat) : Scanned :=
  (scanner.after count).next.1

/-- After any number of readings the scanner is at a place of its text, and if no last reading was
among them, it has passed over as many characters at least. -/
theorem after_at {text : List Char} {scanner : Scanner} (here : scanner.spot.At text 0)
    (count : Nat) :
    ∃ position, (scanner.after count).spot.At text position ∧
      ((∃ earlier < count, (scanner.reading earlier).isLast = true) ∨ count ≤ position) := by
  induction count with
  | zero => exact ⟨0, here, .inr (Nat.le_refl 0)⟩
  | succ count step =>
    obtain ⟨position, there, passed⟩ := step
    obtain ⟨begins, ends, later, -, left, ⟨-, moved⟩ | ⟨last, -⟩⟩ := next_at there
    · refine ⟨ends, left, passed.imp ?_ fun enough => ?_⟩
      · rintro ⟨earlier, before, last⟩
        exact ⟨earlier, Nat.lt_succ_of_lt before, last⟩
      · omega
    · exact ⟨ends, left, .inl ⟨count, Nat.lt_succ_self count, last⟩⟩

/-- After a last reading every reading is the same. -/
theorem reading_of_last {scanner : Scanner} {count later : Nat}
    (last : (scanner.reading count).isLast = true) (after : count ≤ later) :
    scanner.reading later = scanner.reading count := by
  obtain ⟨more, rfl⟩ := Nat.exists_eq_add_of_le after
  clear after
  induction more with
  | zero => rfl
  | succ more step =>
    have last_again : (scanner.reading (count + more)).isLast = true := step ▸ last
    have again : scanner.reading (count + more + 1) = scanner.reading (count + more) :=
      congrArg Prod.fst (next_of_last last_again)
    exact again.trans step

/-- Of more readings than there are characters one is a last one. -/
theorem exists_last {text : List Char} {scanner : Scanner} (here : scanner.spot.At text 0) :
    ∃ count ≤ text.length, (scanner.reading count).isLast = true := by
  obtain ⟨position, there, ⟨earlier, before, last⟩ | enough⟩ := after_at here (text.length + 1)
  · exact ⟨earlier, Nat.le_of_lt_succ before, last⟩
  · exact absurd (Nat.le_trans enough there.within) (Nat.not_succ_le_self _)

/-- Later readings begin no earlier. -/
theorem reading_start_le (scanner : Scanner) (count : Nat) :
    (scanner.reading count).start ≤ (scanner.reading (count + 1)).start :=
  ((scan_leads (scanner.after count).tokenSpot).trans
    (tokenSpot_leads (scanner.after (count + 1)))).offset_le

/-- Whether comments are passed over stays as it is. -/
theorem after_comments (scanner : Scanner) (count : Nat) :
    (scanner.after count).comments = scanner.comments := by
  induction count with
  | zero => rfl
  | succ count step => exact step

/-- The offset at which the last of so many readings began, and zero before the first one. -/
def begun (scanner : Scanner) : Nat → Nat
  | 0 => 0
  | count + 1 => (scanner.reading count).start

theorem begun_le_offset (scanner : Scanner) (count : Nat) :
    scanner.begun count ≤ (scanner.after count).spot.offset := by
  cases count with
  | zero => exact Nat.zero_le _
  | succ count => exact (scan_leads (scanner.after count).tokenSpot).offset_le

theorem begun_le (scanner : Scanner) (count : Nat) :
    scanner.begun count ≤ scanner.begun (count + 1) := by
  cases count with
  | zero => exact Nat.zero_le _
  | succ count => exact scanner.reading_start_le count

end Scanner

/-! ### Any number of steps -/

namespace Stepper

variable (text : String) (comments : Bool) (count : Nat)

/-- The stepper that is where the scanner is after so many readings. -/
def following : Stepper :=
  { ofText text comments with start := (Scanner.ofText text comments).begun count }.move
    ((Scanner.ofText text comments).after count).spot

theorem next_following :
    (following text comments count).next =
      ((Scanner.ofText text comments).reading count, following text comments (count + 1)) := by
  have start : (Scanner.ofText text comments).spot.At text.toList 0 := Spot.at_start text
  obtain ⟨position, there, -⟩ := Scanner.after_at start count
  have same : comments = ((Scanner.ofText text comments).after count).comments :=
    (Scanner.after_comments (.ofText text comments) count).symm
  refine next_move same ?_
  rw [there.rest_eq]
  exact List.drop_suffix position text.toList

/-- After any number of readings the stepper is where the scanner is. -/
theorem after_ofText : (ofText text comments).after count = following text comments count := by
  induction count with
  | zero =>
    show ofText text comments =
      ⟨text.toList, comments, text.toList.length - text.toList.length, 0, 0⟩
    rw [Nat.sub_self]
    rfl
  | succ count step => rw [after, step, next_following]

/-- Its position is the place of the scanner. -/
theorem following_at :
    ((Scanner.ofText text comments).after count).spot.At text.toList
      (following text comments count).position := by
  have start : (Scanner.ofText text comments).spot.At text.toList 0 := Spot.at_start text
  obtain ⟨position, there, -⟩ := Scanner.after_at start count
  have within := there.within
  have same : (following text comments count).position = position := by
    show text.toList.length - ((Scanner.ofText text comments).after count).spot.rest.length = _
    rw [there.length_rest]
    omega
  rw [same]
  exact there

end Stepper

namespace Scanner

/-- **Reading on and on.** However often a reader has been asked, it has made no more steps than
there are characters; its offset is the size of the characters that it has stepped over, and the
offset at which its last token began is no greater and has never become less. It reads what the
scanner reads. Each reading begins at a place, and goes on from there by a character at least, or it
is the end of the input, at the end of the text, or a character that begins no token; these two are
repeated for ever. So after one reading more than there are characters nothing new is read. -/
theorem ofText_readings (text : String) (comments : Bool) (count : Nat) :
    let scanner := ofText text comments
    let read := scanner.reading count
    let stepper := (Stepper.ofText text comments).after count
    let later := (Stepper.ofText text comments).after (count + 1)
    (stepper.position ≤ text.length ∧
        stepper.offset = byteLength (text.toList.take stepper.position) ∧
        (scanner.after count).spot = ⟨stepper.offset, text.toList.drop stepper.position⟩) ∧
      stepper.next = (read, later) ∧
      (stepper.start ≤ stepper.offset ∧ stepper.start ≤ later.start ∧ later.start = read.start) ∧
      (∃ begins, stepper.position ≤ begins ∧ begins ≤ later.position ∧
        later.start = byteLength (text.toList.take begins) ∧
        (begins < later.position ∨
          read.outcome = .ok .endOfInput ∧ read.start = text.utf8ByteSize ∨
          ∃ character, read.outcome = .error ⟨.unexpectedCharacter character, read.start⟩)) ∧
      ((read.outcome = .ok .endOfInput ∨ ∃ character position,
          read.outcome = .error ⟨.unexpectedCharacter character, position⟩) →
        ∀ more, count ≤ more → scanner.reading more = read) ∧
      ∀ more, text.length ≤ more → scanner.reading more = scanner.reading text.length := by
  intro scanner read stepper later
  have stands : stepper = .following text comments count := Stepper.after_ofText ..
  have stands_later : later = .following text comments (count + 1) := Stepper.after_ofText ..
  have here := Stepper.following_at text comments count
  have there := Stepper.following_at text comments (count + 1)
  rw [← stands] at here
  rw [← stands_later] at there
  have offset : (scanner.after count).spot.offset = stepper.offset := by
    rw [stands]
    rfl
  have begun : later.start = read.start := by
    rw [stands_later]
    rfl
  refine ⟨⟨?_, ?_, ?_⟩, ?_, ⟨?_, ?_, begun⟩, ?_, ?_, ?_⟩
  · rw [← String.length_toList]
    exact here.within
  · rw [← offset]
    exact here.offset_eq
  · rw [← offset, ← here.rest_eq]
  · rw [stands, stands_later]
    exact Stepper.next_following text comments count
  · rw [stands]
    exact scanner.begun_le_offset count
  · rw [stands, stands_later]
    exact scanner.begun_le count
  · rw [begun, ← byteLength_toList]
    exact next_goes_on here there
  · intro ends more after
    exact reading_of_last (Scanned.isLast_iff.mpr ends) after
  · intro more after
    have start : scanner.spot.At text.toList 0 := Spot.at_start text
    obtain ⟨count, few, last⟩ := exists_last start
    rw [String.length_toList] at few
    rw [reading_of_last last (Nat.le_trans few after), reading_of_last last few]

/-- A number without its exponent is passed over, and then a name; a character that begins no token
is met again and again, and no step is made over it. -/
theorem reading_repeated :
    (ofText "1e a é" true).reading 5 = (ofText "1e a é" true).reading 2 ∧
      (ofText "1e a é" true).reading 9 = (ofText "1e a é" true).reading 6 ∧
      ((Stepper.ofText "1e a é" true).after 9).position ≤ 6 := by
  have readings := ofText_readings "1e a é" true 2
  have unexpected : ((ofText "1e a é" true).reading 2).outcome =
      .error ⟨.unexpectedCharacter 'é', 5⟩ := by rfl
  exact ⟨readings.2.2.2.2.1 (.inr ⟨'é', 5, unexpected⟩) 5 (by decide),
    readings.2.2.2.2.2 9 (by decide), (ofText_readings "1e a é" true 9).1.1⟩

end Scanner

end Formula
