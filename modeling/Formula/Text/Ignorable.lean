/-
**Characters that show nothing.**

The code points with the property Default_Ignorable_Code_Point: joiners, fillers, variation
selectors, direction marks and the code points kept for more of them, as inclusive ranges in
increasing order. Some of them, the Hangul fillers, are letters all the same.
-/

import Formula.Text.Ranges

namespace Formula.Text

/-- The code points that are not drawn where they are not supported. -/
def ignorableRanges : List (Nat × Nat) :=
  [(0xad, 0xad), (0x34f, 0x34f), (0x61c, 0x61c), (0x115f, 0x1160), (0x17b4, 0x17b5),
    (0x180b, 0x180f), (0x200b, 0x200f), (0x202a, 0x202e), (0x2060, 0x206f), (0x3164, 0x3164),
    (0xfe00, 0xfe0f), (0xfeff, 0xfeff), (0xffa0, 0xffa0), (0xfff0, 0xfff8), (0x1bca0, 0x1bca3),
    (0x1d173, 0x1d17a), (0xe0000, 0xe0fff)]

/-- Holds of a character that shows nothing. -/
def isIgnorable (character : Char) : Bool :=
  inRanges ignorableRanges character

example : (ignorableRanges.map fun (first, last) => last + 1 - first).sum = 4174 := by decide

example : increasing ignorableRanges = true := by decide

end Formula.Text
