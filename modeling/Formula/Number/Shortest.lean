/-
**The shortest decimal that reads back.**

A binary64 number is written with the fewest digits that read back as the same number, and with the
nearest such digits. For one digit, two digits and so on the two neighbours of the number on the
grid of decimals with so many digits are read back; the first grid with a hit wins, of two hits the
nearer one, and of two equally near ones the one that the format chooses. Where no grid up to
seventeen digits has a hit, the exact decimal is written, so that what is written reads back in any
case.
-/

import Formula.Number.Binary64

namespace Formula

/-- Which of two decimals equally near to a number is written. -/
inductive Tie
  | upper
  | even
  deriving DecidableEq

namespace Binary64

/-- Holds of a decimal that is read as the magnitude of a rank. -/
def reads (decimal : Decimal) (rank : Nat) : Bool :=
  nearestRank decimal.numerator decimal.denominator == rank

/-- The exponent of the leading decimal digit of a positive magnitude. -/
def leadingExponent (rank : Nat) : Int :=
  (digitsOf (units rank * Nat.pow 10 400 / Nat.pow 2 1074)).length - 401

/-- The decimal on the grid of multiples of `10 ^ exponent` to be written for a magnitude, if one
next to it reads back. -/
def onGrid? (tie : Tie) (rank : Nat) (exponent : Int) : Option Decimal :=
  let numerator := units rank * Nat.pow 10 (-exponent).toNat
  let denominator := Nat.pow 2 1074 * Nat.pow 10 exponent.toNat
  let lower : Decimal := ⟨numerator / denominator, exponent⟩
  let upper : Decimal := ⟨numerator / denominator + 1, exponent⟩
  let twice := 2 * (numerator % denominator)
  let lowerFirst :=
    twice < denominator || (twice == denominator && tie == .even && lower.coefficient % 2 == 0)
  let (preferred, other) := if lowerFirst then (lower, upper) else (upper, lower)
  if reads preferred rank then some preferred
  else if reads other rank then some other
  else none

/-- The magnitude of a rank as a decimal. -/
def exact (rank : Nat) : Decimal :=
  ⟨units rank * Nat.pow 5 1074, -1074⟩

/-- The shortest decimal that reads back as the magnitude of a rank. -/
def shortest (tie : Tie) (rank : Nat) : Decimal :=
  if rank = 0 then ⟨0, 0⟩
  else
    let leading := leadingExponent rank
    let hit := (List.range 17).findSome? fun (further : Nat) => onGrid? tie rank (leading - further)
    hit.getD (exact rank)

end Binary64

end Formula
