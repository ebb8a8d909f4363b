/-
**All readings of a text.**

The readings of a text come one after another until the end of the input, or until a character that
begins no token; that last reading is then repeated for ever. A tape holds them: finitely many, and
the one that is repeated.
-/

import Formula.Scanner

namespace Formula

/-- The readings of a text, the last one apart. -/
structure Tape where
  items : List Scanned
  last : Scanned

namespace Tape

/-- The next reading, and the tape after it. -/
def next : Tape → Scanned × Tape
  | ⟨[], last⟩ => (last, ⟨[], last⟩)
  | ⟨item :: items, last⟩ => (item, ⟨items, last⟩)

end Tape

namespace Scanner

/-- The readings that a scanner is going to make, after those made so far (latest first). -/
def readAll (made : List Scanned) (scanner : Scanner) : Tape :=
  if _ : scanner.next.1.isLast = false then
    readAll (scanner.next.1 :: made) scanner.next.2
  else
    ⟨made.reverse, scanner.next.1⟩
termination_by scanner.spot.rest.length
decreasing_by exact next_rest_lt scanner ‹_›

/-- The readings that a scanner is going to make. -/
def tape (scanner : Scanner) : Tape :=
  readAll [] scanner

end Scanner

/-- The readings of a text, from its beginning. -/
def Tape.ofText (text : String) (comments : Bool) : Tape :=
  (Scanner.ofText text comments).tape

end Formula
