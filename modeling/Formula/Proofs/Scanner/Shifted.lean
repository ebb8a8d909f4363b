/-
**Reading further on in a text.**

What is read depends on the characters ahead and not on the offset at which they stand. A scanner
that stands further on, with the same characters ahead, makes the same readings, and all offsets
that they report are greater by the same distance.

* `Scanner.scan_shifted`: one token or error. It need not be followed through the scanner again:
  what spells a token, and what is unreadable, is said without offsets.
* `Scanner.tape_shifted`, `Tape.lexing_shifted`: all readings, and the tokens among them.
-/

import Formula.Proofs.Scanner.Errors

namespace Formula

variable (distance : Nat)

/-! ### Distances -/

/-- A spot further on, with the same characters after it. -/
def Spot.shifted (spot : Spot) : Spot :=
  ⟨spot.offset + distance, spot.rest⟩

/-- A scanner further on, with the same characters ahead. -/
def Scanner.shifted (scanner : Scanner) : Scanner :=
  ⟨scanner.spot.shifted distance, scanner.comments⟩

/-- An error that is met further on. -/
def ParseError.shifted (error : ParseError) : ParseError :=
  ⟨error.cause, error.position + distance⟩

/-- A reading that is made further on. -/
def Scanned.shifted (scanned : Scanned) : Scanned :=
  ⟨scanned.start + distance, scanned.outcome.mapError (·.shifted distance)⟩

/-- A tape of readings that are made further on. -/
def Tape.shifted (tape : Tape) : Tape :=
  ⟨tape.items.map (·.shifted distance), tape.last.shifted distance⟩

/-- A token that stands further on. -/
def Located.shifted (located : Located) : Located :=
  ⟨located.start + distance, located.token⟩

/-- Tokens that stand further on, and end there. -/
def Lexing.shifted (lexing : Lexing) : Lexing :=
  ⟨lexing.tokens.map (·.shifted distance),
    (lexing.ending.map (· + distance)).mapError (·.shifted distance)⟩

namespace Spot

theorem stop_shifted (spot : Spot) : (spot.shifted distance).stop = spot.stop + distance :=
  Nat.add_right_comm ..

/-- With the same characters after them, spots from which the text is as long are the same. -/
theorem eq_of_stop {first second : Spot} (same : first.rest = second.rest)
    (stop : first.stop = second.stop) : first = second := by
  obtain ⟨offset, rest⟩ := first
  cases same
  have offsets : offset = second.offset := Nat.add_right_cancel stop
  rw [offsets]

end Spot

/-! ### One reading -/

/-- What is unreadable is unreadable further on, for the same cause. -/
theorem Unreadable.shifted {offset : Nat} {text rest : List Char} {error : ParseError}
    (unreadable : Unreadable offset text error rest) :
    Unreadable (offset + distance) text (error.shifted distance) rest := by
  cases unreadable with
  | character other => exact .character other
  | text is_quote quotes is_ending => exact .text is_quote quotes is_ending
  | @escape quote escape body content rest is_quote quotes unknown =>
    have further : offset + byteLength (quote :: body) + distance =
        offset + distance + byteLength (quote :: body) := Nat.add_right_comm ..
    show Unreadable _ _ ⟨_, offset + byteLength (quote :: body) + distance⟩ _
    rw [further]
    exact .escape is_quote quotes unknown
  | number malformed => exact .number malformed

namespace Scanner

theorem pastTrivia_shifted (comments inComment : Bool) (offset : Nat) (text : List Char) :
    pastTrivia comments inComment (offset + distance) text =
      (pastTrivia comments inComment offset text).shifted distance := by
  induction text generalizing inComment offset with
  | nil => rfl
  | cons character text step =>
    rw [pastTrivia, pastTrivia, Nat.add_right_comm, step, step, step]
    repeat' split
    all_goals rfl

theorem tokenSpot_shifted (scanner : Scanner) :
    (scanner.shifted distance).tokenSpot = scanner.tokenSpot.shifted distance :=
  pastTrivia_shifted ..

/-- What is read at a spot is read at a spot further on. -/
theorem scan_shifted (spot : Spot) :
    scan (spot.shifted distance) =
      ((scan spot).1.mapError (·.shifted distance), (scan spot).2.shifted distance) := by
  cases outcome : (scan spot).1 with
  | ok token =>
    by_cases ended : token = .endOfInput
    · subst ended
      obtain ⟨offset, rest⟩ := spot
      obtain rfl : rest = [] := scan_tells outcome
      rfl
    · obtain ⟨spelling, here, offset, spells, ends⟩ :=
        scan_reads (Prod.ext outcome rfl : scan spot = (.ok token, _)) ended
      have further : (spot.shifted distance).rest = spelling ++ (scan spot).2.rest := here
      rw [scan_of_spelledBy further spells ends, Spot.shifted, Spot.shifted, offset,
        Nat.add_right_comm]
      rfl
  | error error =>
    have unreadable := (scan_error_iff.mp ⟨outcome, rfl⟩).shifted distance
    obtain ⟨failed, same⟩ := scan_error_iff.mpr
      (show Unreadable (spot.shifted distance).offset (spot.shifted distance).rest _ _
        from unreadable)
    refine Prod.ext failed (Spot.eq_of_stop same ?_)
    show (scan (spot.shifted distance)).2.stop = ((scan spot).2.shifted distance).stop
    rw [(scan_leads _).stop_eq, Spot.stop_shifted, Spot.stop_shifted, (scan_leads spot).stop_eq]

theorem next_shifted (scanner : Scanner) :
    (scanner.shifted distance).next =
      (scanner.next.1.shifted distance, scanner.next.2.shifted distance) := by
  show (Scanned.mk (scanner.shifted distance).tokenSpot.offset
      (scan (scanner.shifted distance).tokenSpot).1,
    Scanner.mk (scan (scanner.shifted distance).tokenSpot).2 scanner.comments) = _
  rw [tokenSpot_shifted, scan_shifted]
  rfl

end Scanner

/-! ### All readings -/

theorem Scanned.isLast_shifted (scanned : Scanned) :
    (scanned.shifted distance).isLast = scanned.isLast := by
  obtain ⟨start, outcome⟩ := scanned
  cases outcome with
  | ok token => rfl
  | error error =>
    obtain ⟨cause, position⟩ := error
    cases cause <;> rfl

theorem Scanner.tape_shifted (scanner : Scanner) :
    (scanner.shifted distance).tape = scanner.tape.shifted distance := by
  have kind_shifted (scanner : Scanner) :
      (scanner.shifted distance).next.1.isLast = scanner.next.1.isLast := by
    rw [next_shifted, Scanned.isLast_shifted]
  induction scanner using tape_induction with
  | last scanner kind =>
    rw [tape_of_last kind, tape_of_last ((kind_shifted scanner).trans kind), next_shifted]
    rfl
  | more scanner kind rest =>
    rw [tape_of_more kind, tape_of_more ((kind_shifted scanner).trans kind), next_shifted, rest]
    rfl

theorem Lexing.add_shifted (scanned : Scanned) (rest : Lexing) :
    add (scanned.shifted distance) (rest.shifted distance) =
      (add scanned rest).shifted distance := by
  obtain ⟨start, outcome⟩ := scanned
  cases outcome with
  | error error => rfl
  | ok token => cases token <;> rfl

/-- The tokens of readings that are made further on stand further on. -/
theorem Tape.lexing_shifted (tape : Tape) :
    (tape.shifted distance).lexing = tape.lexing.shifted distance := by
  obtain ⟨items, last⟩ := tape
  unfold lexing shifted
  induction items with
  | nil => exact Lexing.add_shifted distance last ⟨[], .ok last.start⟩
  | cons item items step =>
    rw [List.map_cons, List.foldr_cons, List.foldr_cons, step, Lexing.add_shifted]

end Formula
