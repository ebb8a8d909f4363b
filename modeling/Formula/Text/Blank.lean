/-
**White space.**

The twenty-five characters with the property White_Space, and what is cut along them: the blanks
around a text and the lines of an input. `isBlank_of_isWhitespace` says that every character that is
white space in the narrow sense of the core library is a blank.
-/

import Formula.Text.Ranges

namespace Formula.Text

/-- The code points with the property White_Space. -/
def blankRanges : List (Nat × Nat) :=
  [(0x9, 0xd), (0x20, 0x20), (0x85, 0x85), (0xa0, 0xa0), (0x1680, 0x1680), (0x2000, 0x200a),
    (0x2028, 0x2029), (0x202f, 0x202f), (0x205f, 0x205f), (0x3000, 0x3000)]

/-- Holds of a white-space character. -/
def isBlank (character : Char) : Bool :=
  inRanges blankRanges character

example : increasing blankRanges = true := by decide

example : (blankRanges.map fun (first, last) => last + 1 - first).sum = 25 := by decide

theorem isBlank_of_isWhitespace {character : Char} (white : character.isWhitespace = true) :
    isBlank character = true := by
  simp only [Char.isWhitespace, Bool.or_eq_true, decide_eq_true_eq] at white
  rcases white with ((rfl | rfl) | rfl) | rfl <;> decide

/-! ### Cutting along blanks -/

/-- A text without the blanks before and after it. -/
def trimmed (text : List Char) : List Char :=
  ((text.dropWhile isBlank).reverse.dropWhile isBlank).reverse

/-- The pieces of a text between its line feeds. -/
def lines (text : List Char) : List (List Char) :=
  text.splitOn '\n'

/-- The lines of a text that hold more than blanks, each without the blanks around it. -/
def entries (text : String) : List String :=
  (((lines text.toList).map trimmed).filter fun line => !line.isEmpty).map String.ofList

end Formula.Text
