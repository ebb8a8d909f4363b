/-
**Numbers survive their own text.**

Whatever the number, an integer or one of binary64, its canonical text is read as the same number
again, and nothing is reported. The text of a binary64 number holds a character that is no digit,
whichever way it is laid out: a point, the letter before an exponent, or the letters of a word. So
it is never read as an integer. A minus is split off when the text is read, and is no part of a
token.

* `Binary64.toBits_ofBits`: a number is its encoding, so nothing of it is lost.
* `Literal.ofLexeme?_integer`, `Literal.ofLexeme?_number`: what the canonical texts are read as.
* `Literal.canonical_token`: a number without a minus is one token.
* `Literal.display_survives`: all of this together.
-/

import Formula.Proofs.LexicalGrammar
import Formula.Proofs.Number.Exact
import Formula.Proofs.Written.Leaves

namespace Formula

/-! ### Encodings -/

namespace Binary64

theorem toBits_ofRank (negative : Bool) {rank : Nat} (isNumber : rank ≤ infinityRank) :
    (ofRank negative rank).toBits = rank + toBits.signBit negative := by
  unfold ofRank
  by_cases isFinite : rank < infinityRank
  · rw [dif_pos isFinite]
    rfl
  · rw [dif_neg isFinite, Nat.le_antisymm isNumber (Nat.not_lt.mp isFinite)]
    rfl

/-- Sixty-four bits encode the number that they are decoded as, unless that is no number. -/
theorem toBits_ofBits {bits : Nat} (word : bits < 2 ^ 64) (isNumber : ofBits bits ≠ nan) :
    (ofBits bits).toBits = bits := by
  have halves := Nat.mod_add_div bits (Nat.pow 2 63)
  have sign_lt : bits / Nat.pow 2 63 < 2 := Nat.div_lt_of_lt_mul word
  have sign : toBits.signBit (bits / Nat.pow 2 63 % 2 == 1) =
      Nat.pow 2 63 * (bits / Nat.pow 2 63) := by
    generalize bits / Nat.pow 2 63 = half at sign_lt
    match half, sign_lt with
    | 0, _ => rfl
    | 1, _ => rfl
  unfold ofBits at isNumber ⊢
  dsimp only at isNumber ⊢
  split at isNumber
  next inside => rw [if_pos inside, toBits_ofRank _ inside, sign, halves]
  next => exact absurd rfl isNumber

end Binary64

/-! ### One token -/

/-- After one token that goes on to the end of a text there is nothing. -/
theorem Lexing.ofText_of_next {text : String} {comments : Bool} {token : Token}
    (more : token ≠ .endOfInput)
    (read : (Scanner.ofText text comments).next =
      (⟨0, .ok token⟩, ⟨⟨byteLength text.toList, []⟩, comments⟩)) :
    ofText text comments = ⟨[⟨0, token⟩], .ok (byteLength text.toList)⟩ := by
  show (Scanner.ofText text comments).tape.lexing = _
  rw [Scanner.lexing_tape, read, Lexing.add_token more, Scanner.lexing_tape]
  rfl

namespace Literal

theorem splitSign_minus (rest : List Char) : splitSign ('-' :: rest) = (true, rest) := rfl

/-! ### Integers -/

/-- A negative integer has the digits of its size after the minus. -/
theorem display_negative {value : Int64} (negative : value.toInt < 0) :
    (integer value).display.toList = '-' :: digitsOf value.toInt.natAbs := by
  obtain ⟨natural, same⟩ := Int.eq_negSucc_of_lt_zero negative
  rw [display, same]
  show ("-" ++ Nat.repr (natural + 1)).toList = _
  rw [String.toList_append, Nat.toList_repr]
  rfl

/-- An integer is read from its text, with a minus or without. -/
theorem ofLexeme?_integer (value : Int64) :
    ofLexeme? (integer value).display = some (integer value) := by
  by_cases negative : value.toInt < 0
  · have split := congrArg splitSign (display_negative negative)
    refine ofLexeme?_of_digits (split.trans (splitSign_minus _)) (Digits.digitsOf _) ?_
    rw [if_pos rfl, digitsValue_digitsOf]
    omega
  · exact ofLexeme?_toString (Int.not_lt.mp negative)

/-! ### Binary64 numbers -/

/-- A number has its text without the minus after the minus. -/
theorem canonical_negative (rank : Fin infinityRank) :
    (canonical.text (.finite true rank)).toList =
      '-' :: (canonical.text (.finite false rank)).toList := by
  rw [canonical_toList]
  show ("-" ++ String.ofList _).toList = _
  simp only [String.toList_append, String.toList_ofList]
  rfl

/-- A number is read from its text, with a minus or without. -/
theorem ofLexeme?_number (value : Binary64) :
    ofLexeme? (number value).display = some (number value) := by
  match value with
  | .nan => rfl
  | .infinite false => rfl
  | .infinite true => rfl
  | .finite false rank => exact ofLexeme?_canonical rank
  | .finite true rank =>
    have split := congrArg splitSign (canonical_negative rank)
    have read := ofLexeme?_of_split (split.trans (splitSign_minus _)) (canonical_shows rank)
    rw [Binary64.nearest_shortest, Binary64.ofRank, dif_pos rank.isLt] at read
    exact read

/-- The text of a number holds a character that is no digit. -/
theorem display_number_mark (value : Binary64) :
    ∃ character ∈ (number value).display.toList, character.isDigit = false := by
  match value with
  | .nan => exact ⟨'n', by decide, rfl⟩
  | .infinite false => exact ⟨'i', by decide, rfl⟩
  | .infinite true => exact ⟨'i', by decide, rfl⟩
  | .finite false rank => exact (canonical_shows rank).mark
  | .finite true rank =>
    refine ⟨'-', ?_, rfl⟩
    rw [display, canonical_negative]
    exact List.mem_cons_self

/-- The text of a number is not read as an integer. -/
theorem integer?_of_number {lexeme : String} {value : Binary64}
    (read : ofLexeme? lexeme = some (number value)) : integer? lexeme = none := by
  unfold ofLexeme? at read
  cases whole : integer? lexeme with
  | none => rfl
  | some integer =>
    rw [whole] at read
    cases read

/-- Nothing is reported of the text of a number. -/
theorem events_of_display {α : Type} (value : Binary64) :
    (Request.number (number value).display : Request α).events = [] := by
  obtain ⟨character, inside, no_digit⟩ := display_number_mark value
  refine events_of_mark fun digits => ?_
  rw [digits.2 character inside] at no_digit
  cases no_digit

/-! ### Tokens -/

/-- The text of a number without a minus is read to its end, as one token. -/
theorem canonical_token (rank : Fin infinityRank) (comments : Bool) :
    let text := (number (.finite false rank)).display
    (Scanner.ofText text comments).next =
      (⟨0, .ok (.number text)⟩, ⟨⟨byteLength text.toList, []⟩, comments⟩) := by
  intro text
  have spells : (Token.number text).SpelledBy text.toList := (canonical_shows rank).spells.spelledBy
  have before : Trivia comments (text.toList ++ []) [] := .nothing
  have read := Scanner.next_of_spelledBy 0 before spells (Clear.nothing.endsAt spells)
  have offset : 0 + byteLength [] + byteLength text.toList = byteLength text.toList := by
    rw [Nat.zero_add]
    exact Nat.zero_add _
  rw [List.nil_append, List.append_nil, offset] at read
  exact read

/-- **Numbers survive their own text.** Every integer of sixty-four bits and every binary64 number
is read from its canonical text as it is, the number of binary64 never as an integer, and nothing is
reported. So the bits of a number come back, unless they are those of no number; what is no number
is read as no number. If its sign bit is not set, the canonical text of a finite number is one
token, from the first byte to the last. -/
theorem display_survives :
    (∀ value : Int64,
      ofLexeme? (integer value).display = some (integer value) ∧
      ∀ α : Type, (Request.number (integer value).display : Request α).events = []) ∧
    (∀ value : Binary64,
      ofLexeme? (number value).display = some (number value) ∧
      integer? (number value).display = none ∧
      ∀ α : Type, (Request.number (number value).display : Request α).events = []) ∧
    (∀ bits < 2 ^ 64, ∃ read, ofLexeme? (number (.ofBits bits)).display = some (number read) ∧
      if Binary64.ofBits bits = .nan then read = .nan else read.toBits = bits) ∧
    ∀ (rank : Fin infinityRank) (comments : Bool),
      let text := (number (.finite false rank)).display
      (Scanner.ofText text comments).next =
        (⟨0, .ok (.number text)⟩, ⟨⟨byteLength text.toList, []⟩, comments⟩) ∧
      Lexing.ofText text comments = ⟨[⟨0, .number text⟩], .ok (byteLength text.toList)⟩ := by
  refine ⟨fun value => ?_, fun value => ?_, fun bits word => ?_, fun rank comments => ?_⟩
  · have read := ofLexeme?_integer value
    exact ⟨read, fun α => events_of_integer read⟩
  · have read := ofLexeme?_number value
    exact ⟨read, integer?_of_number read, fun α => events_of_display value⟩
  · refine ⟨_, ofLexeme?_number _, ?_⟩
    by_cases isNan : Binary64.ofBits bits = .nan
    · rw [if_pos isNan]
      exact isNan
    · rw [if_neg isNan]
      exact Binary64.toBits_ofBits word isNan
  · have token := canonical_token rank comments
    exact ⟨token, Lexing.ofText_of_next (by rintro ⟨⟩) token⟩

end Literal

end Formula
