/-
**Every step is over a character.**

The stepper at a spot of its text (`Stepper.move`) reads what the scanner reads there, and is at the
spot where the scanner stands after that. So it never makes a step at the end of the text, which
leads to no spot: each one is made where a character has been seen.

* `Stepper.move_current`, `Stepper.move_advance`: what is seen at a spot, and the step from there.
* `Stepper.run_move`, `Stepper.skipTrivia_move`, `Stepper.readContent_move`: the loops.
* `Stepper.read_move`, `Stepper.next_move`: one token, and one reading with the trivia before it.
-/

import Formula.Proofs.Scanner.Readings
import Formula.Proofs.Scanner.Stepper

namespace Formula

open Scanner

namespace Spot

theorem skip_skip (spot : Spot) (first second : Nat) :
    (spot.skip first).skip second = spot.skip (first + second) := by
  simp only [skip, List.drop_drop, List.take_add, byteLength_append, Nat.add_assoc]

theorem span_isEmpty (spot : Spot) (belongs : Char → Bool) :
    (spot.span belongs).1.isEmpty = !spot.rest.head?.any belongs := by
  rw [span]
  cases spot.rest with
  | nil => rfl
  | cons first rest =>
    by_cases member : belongs first = true
    · simp [List.takeWhile_cons_of_pos member, member]
    · simp [List.takeWhile_cons_of_neg member, member]

end Spot

namespace Stepper

/-! ### At a spot -/

/-- The stepper at a spot of its text. -/
def move (stepper : Stepper) (spot : Spot) : Stepper :=
  { stepper with position := stepper.text.length - spot.rest.length, offset := spot.offset }

variable {stepper : Stepper}

section Spots

variable {spot : Spot} (inside : spot.rest <:+ stepper.text)

include inside

theorem move_getElem? (ahead : Nat) :
    stepper.text[(stepper.move spot).position + ahead]? = spot.rest[ahead]? := by
  obtain ⟨front, same⟩ := inside
  have position : (stepper.move spot).position = front.length := by
    show stepper.text.length - spot.rest.length = front.length
    rw [← same, List.length_append, Nat.add_sub_cancel]
  rw [position, ← same, List.getElem?_append_right (Nat.le_add_right ..), Nat.add_sub_cancel_left]

theorem move_current : (stepper.move spot).current = spot.rest.head? :=
  (move_getElem? inside 0).trans List.head?_eq_getElem?.symm

theorem move_peek : (stepper.move spot).peek = spot.rest[1]? :=
  move_getElem? inside 1

end Spots

theorem suffix_tail {character : Char} {rest text : List Char}
    (inside : character :: rest <:+ text) : rest <:+ text :=
  (List.suffix_cons character rest).trans inside

theorem suffix_leads {spot after : Spot} {text : List Char} (inside : spot.rest <:+ text)
    (leads : spot.LeadsTo after) : after.rest <:+ text := by
  obtain ⟨passed, same, -⟩ := leads
  exact (same ▸ List.suffix_append passed after.rest).trans inside

section Characters

variable {offset : Nat} {character : Char} {rest : List Char}

theorem current_nil : (stepper.move ⟨offset, []⟩).current = none :=
  move_current List.nil_suffix

theorem current_cons (inside : character :: rest <:+ stepper.text) :
    (stepper.move ⟨offset, character :: rest⟩).current = some character :=
  move_current inside

/-- A step from a spot that is not at the end passes over one character. -/
theorem move_advance (inside : character :: rest <:+ stepper.text) :
    (stepper.move ⟨offset, character :: rest⟩).advance =
      stepper.move ⟨offset + character.utf8Size, rest⟩ := by
  have fits := inside.length_le
  rw [List.length_cons] at fits
  have position :
      stepper.text.length - (rest.length + 1) + 1 = stepper.text.length - rest.length := by
    omega
  unfold advance
  rw [current_cons inside]
  simp only [move, List.length_cons, position, Option.elim_some]

end Characters

/-! ### Loops -/

theorem run_move (belongs : Char → Bool) {spot : Spot} (inside : spot.rest <:+ stepper.text) :
    (stepper.move spot).run belongs =
      ((spot.span belongs).1, stepper.move (spot.span belongs).2) := by
  obtain ⟨offset, rest⟩ := spot
  dsimp only at inside
  induction rest generalizing offset with
  | nil =>
    rw [run_of_neg (by rw [current_nil]; rintro _ ⟨⟩)]
    rfl
  | cons character rest step =>
    by_cases member : belongs character = true
    · rw [run_of_pos (current_cons inside) member, move_advance inside, step _ (suffix_tail inside)]
      simp only [Spot.span, List.takeWhile_cons_of_pos member, List.dropWhile_cons_of_pos member,
        byteLength_cons, Nat.add_assoc]
    · have other := eq_false_of_ne_true member
      rw [run_of_neg (by rw [current_cons inside]; rintro _ ⟨⟩; exact other)]
      simp only [Spot.span, List.takeWhile_cons_of_neg member, List.dropWhile_cons_of_neg member]
      rfl

/-- Trivia are gone over as they are passed over; from within a comment, the rest of it first. -/
theorem skipTrivia_move {text : List Char} (inside : text <:+ stepper.text) (offset : Nat) :
    (stepper.move ⟨offset, text⟩).skipTrivia =
        stepper.move (pastTrivia stepper.comments false offset text) ∧
      ((stepper.move ⟨offset, text⟩).run (· != '\n')).2.skipTrivia =
        stepper.move (pastTrivia stepper.comments true offset text) := by
  induction text generalizing offset with
  | nil =>
    refine ⟨skipTrivia_of_none current_nil, ?_⟩
    rw [run_of_neg (by rw [current_nil]; rintro _ ⟨⟩), skipTrivia_of_none current_nil]
    rfl
  | cons character rest step =>
    have here := @current_cons stepper offset character rest inside
    have comments : (stepper.move ⟨offset, character :: rest⟩).comments = stepper.comments := rfl
    obtain ⟨after, within⟩ := step (suffix_tail inside) (offset + character.utf8Size)
    have outside : (stepper.move ⟨offset, character :: rest⟩).skipTrivia =
        stepper.move (pastTrivia stepper.comments false offset (character :: rest)) := by
      rw [skipTrivia_of_current here, comments, pastTrivia, if_neg Bool.false_ne_true,
        move_advance inside, after, Bool.and_comm]
      by_cases blank : Text.isBlank character = true
      · rw [if_pos blank, if_pos blank]
      rw [if_neg blank, if_neg blank]
      by_cases begins : (stepper.comments && character == '#') = true
      · have sign : character = '#' := beq_iff_eq.mp (Bool.and_eq_true_iff.mp begins).2
        have more : (character != '\n') = true := by
          rw [sign]
          rfl
        rw [if_pos begins, if_pos begins, run_of_pos here more, move_advance inside, within]
      · rw [if_neg begins, if_neg begins]
    refine ⟨outside, ?_⟩
    by_cases ends : character = '\n'
    · rw [run_of_neg (by rw [here]; rintro _ ⟨⟩; rw [ends]; rfl), outside, ends]
      rfl
    · have more : (character != '\n') = true := bne_iff_ne.mpr ends
      rw [run_of_pos here more, move_advance inside, within, pastTrivia, if_pos rfl, more]

theorem readContent_move {opening : Nat} {quote : Char} {offset : Nat} {content text : List Char}
    (inside : text <:+ stepper.text) :
    (stepper.move ⟨offset, text⟩).readContent opening quote content =
      ((scanContent opening quote offset content text).1,
        stepper.move (scanContent opening quote offset content text).2) := by
  fun_induction scanContent opening quote offset content text with
  | case1 offset content =>
    rw [readContent]
    split
    · rfl
    · rename_i there
      cases current_nil.symm.trans there
  | case2 offset content rest =>
    rw [readContent_of_current (current_cons inside), if_pos rfl, move_advance inside]
  | case3 offset content unquoted =>
    rw [readContent_of_current (current_cons inside), if_neg unquoted, if_pos rfl,
      move_advance inside]
    simp only [current_nil]
  | case4 offset content escape rest meant found unquoted step =>
    have more := suffix_tail inside
    rw [readContent_of_current (current_cons inside), if_neg unquoted, if_pos rfl,
      move_advance inside]
    simp only [current_cons more, found]
    rw [move_advance more, step (suffix_tail more)]
  | case5 offset content escape rest unknown unquoted =>
    have more := suffix_tail inside
    rw [readContent_of_current (current_cons inside), if_neg unquoted, if_pos rfl,
      move_advance inside]
    simp only [current_cons more, unknown]
    rfl
  | case6 offset content character rest unquoted unescaped step =>
    rw [readContent_of_current (current_cons inside), if_neg unquoted, if_neg unescaped,
      move_advance inside, step (suffix_tail inside)]

/-! ### One token -/

section Token

variable {spot : Spot} (inside : spot.rest <:+ stepper.text)

include inside

theorem skip_move {character : Char} {rest : List Char} (here : spot.rest = character :: rest) :
    (stepper.move spot).advance = stepper.move (spot.skip 1) := by
  obtain ⟨offset, _⟩ := spot
  cases here
  exact move_advance inside

theorem skip_move_two {first second : Char} {rest : List Char}
    (here : spot.rest = first :: second :: rest) :
    (stepper.move spot).advance.advance = stepper.move (spot.skip 2) := by
  have next : (spot.skip 1).rest = second :: rest := by rw [Spot.skip, here]; rfl
  have more := suffix_leads inside (.skip spot 1)
  rw [skip_move inside here, skip_move more next, Spot.skip_skip]

theorem readFraction_move :
    (stepper.move spot).readFraction =
      ((scanFraction spot).1, stepper.move (scanFraction spot).2) := by
  unfold readFraction scanFraction
  rw [move_current inside, move_peek inside]
  split
  · rename_i point
    obtain ⟨point, place⟩ := point
    obtain ⟨rest, here⟩ := List.head?_eq_some_iff.mp point
    rw [here] at place
    obtain ⟨digit, second, is_digit⟩ := (Option.any_eq_true ..).mp place
    cases rest with
    | nil => cases second
    | cons first rest =>
      cases second
      have more := suffix_leads inside (.skip spot 1)
      simp only [here, if_pos is_digit, skip_move inside here, run_move Char.isDigit more]
  · rename_i no_point
    split
    · rename_i digit rest here
      by_cases is_digit : digit.isDigit = true
      · exact absurd ⟨by rw [here]; rfl, by rw [here]; exact is_digit⟩ no_point
      · rw [if_neg is_digit]
    · rfl

theorem readSign_move :
    (stepper.move spot).readSign = ((scanSign spot).1, stepper.move (scanSign spot).2) := by
  unfold readSign scanSign
  rw [move_current inside]
  split
  · rename_i plus
    obtain ⟨rest, here⟩ := List.head?_eq_some_iff.mp plus
    simp only [here, skip_move inside here]
  · rename_i minus
    obtain ⟨rest, here⟩ := List.head?_eq_some_iff.mp minus
    simp only [here, skip_move inside here]
  · rename_i no_plus no_minus
    split
    · rename_i here
      exact (no_plus (by rw [here]; rfl)).elim
    · rename_i here
      exact (no_minus (by rw [here]; rfl)).elim
    · rfl

theorem readExponent_move :
    (stepper.move spot).readExponent =
      ((scanExponent spot).1, (scanExponent spot).2.1, stepper.move (scanExponent spot).2.2) := by
  unfold readExponent scanExponent
  rw [move_current inside]
  cases here : spot.rest with
  | nil => rfl
  | cons letter rest =>
    simp only [List.head?_cons, Option.any_some]
    by_cases mark : (letter == 'e' || letter == 'E') = true
    · have first := suffix_leads inside (.skip spot 1)
      have second := suffix_leads first (scanSign_leads _)
      simp only [if_pos mark, skip_move inside here, readSign_move first, move_current second,
        run_move Char.isDigit second]
      by_cases digit : (scanSign (spot.skip 1)).2.rest.head?.any Char.isDigit = true
      · rw [if_pos digit, Spot.span_isEmpty, digit]
        rfl
      · have stops : ∀ next ∈ (scanSign (spot.skip 1)).2.rest.head?, next.isDigit = false := by
          intro next first
          rw [Option.mem_def.mp first] at digit
          exact eq_false_of_ne_true digit
        have nothing := Spot.span_of_run (List.nil_append _).symm (List.forall_mem_nil _) stops
        rw [if_neg digit, nothing]
        rfl
    · rw [if_neg mark, if_neg mark]

theorem readNumber_move :
    (stepper.move spot).readNumber = ((scanNumber spot).1, stepper.move (scanNumber spot).2) := by
  have whole := suffix_leads inside (.span spot Char.isDigit)
  have fraction := suffix_leads whole (scanFraction_leads _)
  have exponent := suffix_leads fraction (scanExponent_leads _)
  simp only [readNumber, scanNumber, run_move Char.isDigit inside, readFraction_move whole,
    readExponent_move fraction]
  generalize scanExponent (scanFraction (spot.span Char.isDigit).2).2 = read at exponent ⊢
  obtain ⟨mark, places, after⟩ := read
  cases places with
  | none => rfl
  | some digits =>
    simp only [move_current exponent, run_move isNamePart exponent]
    split <;> rfl

theorem pair_move {first : Char} {rest : List Char} (here : spot.rest = first :: rest)
    (second : Char) (double single : Token) :
    (stepper.move spot).pair second double single =
      if rest.head? = some second then (double, stepper.move (spot.skip 2))
      else (single, stepper.move (spot.skip 1)) := by
  have next : (spot.skip 1).rest = rest := by rw [Spot.skip, here]; rfl
  have more := suffix_leads inside (.skip spot 1)
  have seen : (stepper.move spot).advance.current = rest.head? := by
    rw [skip_move inside here, move_current more, next]
  unfold pair
  rw [seen, skip_move inside here]
  split
  · rename_i follows
    obtain ⟨tail, rfl⟩ := List.head?_eq_some_iff.mp follows
    rw [← skip_move inside here, skip_move_two inside here]
  · rfl

theorem readMark?_move :
    (stepper.move spot).readMark? =
      (mark? spot.rest).map fun mark => (mark.1, stepper.move (spot.skip mark.2)) := by
  unfold readMark?
  rw [move_current inside, move_peek inside]
  cases here : spot.rest with
  | nil => rfl
  | cons first rest =>
    have one := skip_move inside here
    have pairs := pair_move inside here '='
    have peeked : (first :: rest)[1]? = rest.head? := List.head?_eq_getElem?.symm
    simp only [List.head?_cons, single, one, pairs, peeked]
    split
    case h_13 | h_14 =>
      rename_i same
      cases same
      by_cases equals : rest.head? = some '='
      · obtain ⟨tail, rfl⟩ := List.head?_eq_some_iff.mp equals
        rfl
      · have shorter := @mark?_of_shorter rest fun next follows no => equals (no ▸ follows)
        simp only [shorter, if_neg equals]
        rfl
    case h_15 | h_16 =>
      rename_i same
      cases same
      by_cases equals : rest.head? = some '='
      · obtain ⟨tail, rfl⟩ := List.head?_eq_some_iff.mp equals
        rw [← one, skip_move_two inside here]
        rfl
      · rw [if_neg equals, mark?_eq_none_iff.mpr ⟨by decide, fun longer => equals longer.2⟩]
        rfl
    case h_17 =>
      have no_mark : mark? (first :: rest) = none := by
        rw [mark?_eq_none_iff]
        simp only [marks, List.mem_cons, List.not_mem_nil, or_false]
        constructor
        · rintro (rfl | rfl | rfl | rfl | rfl | rfl | rfl | rfl | rfl | rfl | rfl | rfl | rfl | rfl)
          all_goals contradiction
        · rintro ⟨rfl | rfl, -⟩
          all_goals contradiction
      rw [no_mark]
      rfl
    all_goals
      rename_i same
      cases same
      rfl

/-- At a spot the token is read that the scanner reads there. -/
theorem read_move : (stepper.move spot).read = ((scan spot).1, stepper.move (scan spot).2) := by
  unfold read scan
  rw [move_current inside]
  cases here : spot.rest with
  | nil => rfl
  | cons first rest =>
    simp only [List.head?_cons, readMark?_move inside, here]
    cases found : mark? (first :: rest) with
    | some mark =>
      obtain ⟨no_digit, no_letter, no_quote⟩ := mark?_head (by rw [found]; rfl)
      simp only [Option.map_some, no_digit, no_letter, no_quote, Bool.false_eq_true, if_false]
    | none =>
      simp only [Option.map_none]
      by_cases quote : (first == '"' || first == '\'') = true
      · obtain ⟨no_digit, no_letter, -⟩ := quote_begins (by simpa using quote)
        have more : rest <:+ stepper.text := suffix_tail (here ▸ inside)
        have opened : spot.skip 1 = ⟨spot.offset + first.utf8Size, rest⟩ := by
          rw [Spot.skip, here]
          rfl
        simp only [quote, no_digit, no_letter, Bool.false_eq_true, if_false, if_true, readText,
          skip_move inside here, opened]
        exact readContent_move more
      by_cases letter : isNameStart first = true
      · have no_digit := isDigit_of_isNameStart letter
        simp only [quote, letter, no_digit, Bool.false_eq_true, if_false, if_true,
          run_move isNamePart inside, scanWord]
      by_cases digit : first.isDigit = true
      · simp only [quote, letter, digit, Bool.false_eq_true, if_false, if_true,
          readNumber_move inside]
      · simp only [quote, letter, digit, Bool.false_eq_true, if_false]
        rfl

end Token

/-- **Step by step.** At the spot of a scanner what the scanner reads is read, and that leads to the
spot where the scanner is then. -/
theorem next_move {scanner : Scanner} (same : stepper.comments = scanner.comments)
    (inside : scanner.spot.rest <:+ stepper.text) :
    (stepper.move scanner.spot).next =
      (scanner.next.1,
        { stepper with start := scanner.next.1.start }.move scanner.next.2.spot) := by
  have token := suffix_leads inside scanner.tokenSpot_leads
  have begun : (stepper.move scanner.spot).skipTrivia = stepper.move scanner.tokenSpot := by
    rw [tokenSpot, ← same]
    exact (skipTrivia_move inside _).1
  have token_read := @read_move { stepper with start := scanner.tokenSpot.offset } _ token
  unfold next
  rw [begun]
  exact congrArg (fun read => ((⟨scanner.tokenSpot.offset, read.1⟩ : Scanned), read.2)) token_read

end Stepper

end Formula
