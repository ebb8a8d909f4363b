/-
**Sets of characters given by ranges of code points.**

A property of characters is tabled as a list of inclusive ranges; `inRanges` asks whether a
character lies in one of them, and `increasing` whether a table is in order and without overlap.
-/

namespace Formula.Text

/-- Holds of a character whose code point lies in one of the inclusive ranges. -/
def inRanges (ranges : List (Nat × Nat)) (character : Char) : Bool :=
  ranges.any fun (first, last) => first ≤ character.toNat && character.toNat ≤ last

/-- Holds of a table whose ranges are non-empty and follow one another without touching. -/
def increasing : List (Nat × Nat) → Bool
  | [] => true
  | [(first, last)] => first ≤ last
  | (first, last) :: (next, final) :: rest =>
    first ≤ last && last + 1 < next && increasing ((next, final) :: rest)

end Formula.Text
