/-
**A reader that counts its steps.**

A stepper reads tokens as the scanner does, but it keeps all characters of its text and goes over
them one at a time: it looks at the character at its position, and makes a step to the next one
(`Stepper.advance`). Every step is counted. The offset stays where there is no character to pass
over, but the position does not, so a step made at the end of the text would be seen ever after.

* `Stepper.left_advance_lt`, `Stepper.left_run_lt`: a step over a character leaves less of the text,
  and so does a run of them.
* `Stepper.run_of_pos`, `Stepper.skipTrivia_of_current`, `Stepper.readContent_of_current`: one turn
  of each loop.
-/

import Formula.Scanner

namespace Formula

open Scanner

/-- Reads tokens off the characters of a text, one step after another. -/
structure Stepper where
  text : List Char
  comments : Bool
  /-- The number of steps made. -/
  position : Nat
  /-- The bytes of the characters that have been passed over. -/
  offset : Nat
  /-- The offset at which the last token began. -/
  start : Nat

namespace Stepper

/-! ### Steps -/

/-- A stepper at the beginning of a text. -/
def ofText (text : String) (comments : Bool) : Stepper :=
  ⟨text.toList, comments, 0, 0, 0⟩

/-- The character at the position. -/
def current (stepper : Stepper) : Option Char :=
  stepper.text[stepper.position]?

/-- The character after the one at the position. -/
def peek (stepper : Stepper) : Option Char :=
  stepper.text[stepper.position + 1]?

/-- Makes a step. It counts in any case, and its bytes if there is a character. -/
def advance (stepper : Stepper) : Stepper :=
  { stepper with
    position := stepper.position + 1
    offset := stepper.offset + stepper.current.elim 0 Char.utf8Size }

/-- How many characters there are from the position on. -/
def left (stepper : Stepper) : Nat :=
  stepper.text.length - stepper.position

theorem left_advance_lt {stepper : Stepper} {character : Char}
    (here : stepper.current = some character) : stepper.advance.left < stepper.left := by
  obtain ⟨inside, -⟩ := List.getElem?_eq_some_iff.mp here
  show stepper.text.length - (stepper.position + 1) < stepper.text.length - stepper.position
  omega

theorem left_advance_le (stepper : Stepper) : stepper.advance.left ≤ stepper.left :=
  Nat.sub_le_sub_left (Nat.le_succ _) _

/-- Goes over a run of a class of characters. -/
def run (belongs : Char → Bool) (stepper : Stepper) : List Char × Stepper :=
  match _ : stepper.current with
  | none => ([], stepper)
  | some character =>
    if belongs character then
      let more := stepper.advance.run belongs
      (character :: more.1, more.2)
    else ([], stepper)
termination_by stepper.left
decreasing_by exact left_advance_lt ‹_›

section Run

variable {stepper : Stepper} {belongs : Char → Bool} {character : Char}

theorem run_of_pos (here : stepper.current = some character) (member : belongs character = true) :
    stepper.run belongs =
      (character :: (stepper.advance.run belongs).1, (stepper.advance.run belongs).2) := by
  rw [run]
  split
  · rename_i nothing
    cases here.symm.trans nothing
  · rename_i other there
    cases here.symm.trans there
    rw [if_pos member]

theorem run_of_neg (other : ∀ character ∈ stepper.current, belongs character = false) :
    stepper.run belongs = ([], stepper) := by
  rw [run]
  split
  · rfl
  · rename_i character here
    rw [other character here, if_neg Bool.false_ne_true]

theorem left_run_le (belongs : Char → Bool) (stepper : Stepper) :
    (stepper.run belongs).2.left ≤ stepper.left := by
  fun_induction run belongs stepper with
  | case1 | case3 => exact Nat.le_refl _
  | case2 stepper character here member more step =>
    exact Nat.le_trans step (Nat.le_of_lt (left_advance_lt here))

theorem left_run_lt (here : stepper.current = some character) (member : belongs character = true) :
    (stepper.run belongs).2.left < stepper.left := by
  rw [run_of_pos here member]
  exact Nat.lt_of_le_of_lt (left_run_le belongs _) (left_advance_lt here)

end Run

/-! ### Reading -/

/-- Goes over blanks and, where they are passed over, comments. -/
def skipTrivia (stepper : Stepper) : Stepper :=
  match _ : stepper.current with
  | none => stepper
  | some character =>
    if Text.isBlank character then stepper.advance.skipTrivia
    else if _ : (character == '#' && stepper.comments) = true then
      (stepper.run (· != '\n')).2.skipTrivia
    else stepper
termination_by stepper.left
decreasing_by
  · exact left_advance_lt ‹_›
  · refine left_run_lt ‹_› ?_
    have begins : (character == '#') = true := (Bool.and_eq_true_iff.mp ‹_›).1
    rw [beq_iff_eq.mp begins]
    rfl

section Turns

variable {stepper : Stepper} {character : Char}

theorem skipTrivia_of_current (here : stepper.current = some character) :
    stepper.skipTrivia =
      if Text.isBlank character then stepper.advance.skipTrivia
      else if character == '#' && stepper.comments then (stepper.run (· != '\n')).2.skipTrivia
      else stepper := by
  rw [skipTrivia]
  split
  · rename_i nothing
    cases here.symm.trans nothing
  · rename_i other there
    cases here.symm.trans there
    simp only [dite_eq_ite]

theorem skipTrivia_of_none (nothing : stepper.current = none) : stepper.skipTrivia = stepper := by
  rw [skipTrivia]
  split
  · rfl
  · rename_i there
    cases nothing.symm.trans there

end Turns

/-- Reads the content of a text up to the quote that closes it, given the offset of the quote that
opened it and, backwards, the content so far. -/
def readContent (opening : Nat) (quote : Char) (content : List Char) (stepper : Stepper) :
    Except ParseError Token × Stepper :=
  match _ : stepper.current with
  | none => (.error ⟨.unterminatedText, opening⟩, stepper)
  | some character =>
    if character = quote then (.ok (.text (String.ofList content.reverse)), stepper.advance)
    else if character = '\\' then
      match stepper.advance.current with
      | none => (.error ⟨.unterminatedText, opening⟩, stepper.advance)
      | some escape =>
        match unescape escape with
        | some meant => stepper.advance.advance.readContent opening quote (meant :: content)
        | none => (.error ⟨.invalidEscape escape, stepper.offset⟩, stepper.advance)
    else stepper.advance.readContent opening quote (character :: content)
termination_by stepper.left
decreasing_by
  · exact Nat.lt_of_le_of_lt (left_advance_le _) (left_advance_lt ‹_›)
  · exact left_advance_lt ‹_›

theorem readContent_of_current {opening : Nat} {quote character : Char} {content : List Char}
    {stepper : Stepper} (here : stepper.current = some character) :
    stepper.readContent opening quote content =
      if character = quote then (.ok (.text (String.ofList content.reverse)), stepper.advance)
      else if character = '\\' then
        match stepper.advance.current with
        | none => (.error ⟨.unterminatedText, opening⟩, stepper.advance)
        | some escape =>
          match unescape escape with
          | some meant => stepper.advance.advance.readContent opening quote (meant :: content)
          | none => (.error ⟨.invalidEscape escape, stepper.offset⟩, stepper.advance)
      else stepper.advance.readContent opening quote (character :: content) := by
  rw [readContent]
  split
  · rename_i nothing
    cases here.symm.trans nothing
  · rename_i other there
    cases here.symm.trans there
    rfl

/-- Reads a text, from the quote that opens it on. -/
def readText (quote : Char) (stepper : Stepper) : Except ParseError Token × Stepper :=
  stepper.advance.readContent stepper.offset quote []

/-- Reads the fraction of a number, if there is one. -/
def readFraction (stepper : Stepper) : List Char × Stepper :=
  if stepper.current = some '.' ∧ stepper.peek.any Char.isDigit = true then
    let digits := stepper.advance.run Char.isDigit
    ('.' :: digits.1, digits.2)
  else ([], stepper)

/-- Reads the sign of an exponent, if there is one. -/
def readSign (stepper : Stepper) : List Char × Stepper :=
  match stepper.current with
  | some '+' => (['+'], stepper.advance)
  | some '-' => (['-'], stepper.advance)
  | _ => ([], stepper)

/-- Reads the exponent of a number, if there is one; `none` after a letter and sign that no digit
follows. -/
def readExponent (stepper : Stepper) : List Char × Option (List Char) × Stepper :=
  if stepper.current.any fun letter => letter == 'e' || letter == 'E' then
    let sign := stepper.advance.readSign
    if sign.2.current.any Char.isDigit then
      let digits := sign.2.run Char.isDigit
      ('e' :: sign.1, some digits.1, digits.2)
    else ('e' :: sign.1, none, sign.2)
  else ([], some [], stepper)

/-- Reads a number. -/
def readNumber (stepper : Stepper) : Except ParseError Token × Stepper :=
  let whole := stepper.run Char.isDigit
  let fraction := whole.2.readFraction
  match fraction.2.readExponent with
  | (mark, none, stopped) =>
    (.error ⟨.malformedNumber (String.ofList (whole.1 ++ fraction.1 ++ mark)), stepper.offset⟩,
      stopped)
  | (mark, some digits, after) =>
    let lexeme := whole.1 ++ fraction.1 ++ mark ++ digits
    if after.current.any isNameStart then
      let letters := after.run isNamePart
      (.error ⟨.malformedNumber (String.ofList (lexeme ++ letters.1)), stepper.offset⟩, letters.2)
    else (.ok (.number (String.ofList lexeme)), after)

/-- Reads a mark of one character. -/
def single (stepper : Stepper) (token : Token) : Token × Stepper :=
  (token, stepper.advance)

/-- Reads a mark of one character, or of two if the second one follows. -/
def pair (stepper : Stepper) (second : Char) (double single : Token) : Token × Stepper :=
  if stepper.advance.current = some second then (double, stepper.advance.advance)
  else (single, stepper.advance)

/-- Reads a mark, if there is one. -/
def readMark? (stepper : Stepper) : Option (Token × Stepper) :=
  match stepper.current with
  | some '+' => some (stepper.single (.operator .plus))
  | some '-' => some (stepper.single (.operator .minus))
  | some '*' => some (stepper.single (.operator .times))
  | some '/' => some (stepper.single (.operator .divide))
  | some '%' => some (stepper.single (.operator .remainder))
  | some '~' => some (stepper.single (.operator .complement))
  | some '|' => some (stepper.single (.operator .bitOr))
  | some '&' => some (stepper.single (.operator .bitAnd))
  | some '(' => some (stepper.single .openParen)
  | some ')' => some (stepper.single .closeParen)
  | some ',' => some (stepper.single .comma)
  | some '.' => some (stepper.single .dot)
  | some '<' => some (stepper.pair '=' (.operator .lessEqual) (.operator .less))
  | some '>' => some (stepper.pair '=' (.operator .greaterEqual) (.operator .greater))
  | some '=' =>
    if stepper.peek = some '=' then some (stepper.advance.single (.operator .equal)) else none
  | some '!' =>
    if stepper.peek = some '=' then some (stepper.advance.single (.operator .notEqual)) else none
  | _ => none

/-- Reads the token at the position. -/
def read (stepper : Stepper) : Except ParseError Token × Stepper :=
  match stepper.current with
  | none => (.ok .endOfInput, stepper)
  | some character =>
    match stepper.readMark? with
    | some (token, after) => (.ok token, after)
    | none =>
      if character == '"' || character == '\'' then stepper.readText character
      else if isNameStart character then
        let letters := stepper.run isNamePart
        (.ok (.ofWord (String.ofList letters.1)), letters.2)
      else if character.isDigit then stepper.readNumber
      else (.error ⟨.unexpectedCharacter character, stepper.offset⟩, stepper)

/-- Reads the next token. -/
def next (stepper : Stepper) : Scanned × Stepper :=
  let begun := stepper.skipTrivia
  let read := { begun with start := begun.offset : Stepper }.read
  (⟨begun.offset, read.1⟩, read.2)

/-- The stepper after so many readings. -/
def after (stepper : Stepper) : Nat → Stepper
  | 0 => stepper
  | count + 1 => (stepper.after count).next.2

end Stepper

end Formula
