/-
**Binary64 numbers.**

The finite magnitudes of the format, in increasing order, are numbered by ranks from zero on, and
the magnitude of rank `r` is `units r / 2 ^ 1074`. Between two powers of two the magnitudes are
evenly spaced, and the spacing doubles from one power of two to the next; the rank of a number is
the number that the bits of its encoding spell, the sign bit apart. Sixty-four bits encode a number
with its sign, an infinity, or no number.

A quotient is rounded to the nearest magnitude, and a quotient halfway between two to the even rank
(`nearestRank`). Beyond the last finite rank there is infinity.
-/

import Formula.Number.Decimal

namespace Formula

/-- The first rank that is no finite magnitude. -/
def infinityRank : Nat :=
  2047 * Nat.pow 2 52

/-- A number of the format. -/
inductive Binary64
  | nan
  | infinite (negative : Bool)
  | finite (negative : Bool) (rank : Fin infinityRank)
  deriving DecidableEq

namespace Binary64

/-! ### Magnitudes -/

/-- How often the spacing has doubled before a rank. -/
def scale (rank : Nat) : Nat :=
  rank / Nat.pow 2 52 - 1

/-- A magnitude in units of its own spacing. -/
def significand (rank : Nat) : Nat :=
  rank - scale rank * Nat.pow 2 52

/-- A magnitude in units of `1 / 2 ^ 1074`, the least spacing. -/
def units (rank : Nat) : Nat :=
  significand rank * Nat.pow 2 (scale rank)

/-- A quotient rounded to the nearest natural number, a half to the even neighbour. -/
def roundHalfEven (numerator denominator : Nat) : Nat :=
  let floor := numerator / denominator
  let twice := 2 * (numerator % denominator)
  if twice < denominator then floor
  else if denominator < twice then floor + 1
  else floor + floor % 2

/-- The rank of the magnitude nearest to a quotient, of two equally near ones the even rank. -/
def nearestRank (numerator denominator : Nat) : Nat :=
  let numerator := numerator * Nat.pow 2 1074
  let doublings := (numerator / denominator).log2 - 52
  doublings * Nat.pow 2 52 + roundHalfEven numerator (denominator * Nat.pow 2 doublings)

/-- The number with a sign and a rank; beyond the finite ranks, infinity. -/
def ofRank (negative : Bool) (rank : Nat) : Binary64 :=
  if isFinite : rank < infinityRank then finite negative ⟨rank, isFinite⟩ else infinite negative

/-- The number nearest to a decimal. -/
def ofDecimal (negative : Bool) (decimal : Decimal) : Binary64 :=
  ofRank negative (nearestRank decimal.numerator decimal.denominator)

/-! ### Equality as numbers -/

/-- Equality as numbers: the two zeros are equal, and what is no number is not even equal to
itself. -/
def sameNumber : Binary64 → Binary64 → Bool
  | nan, _ => false
  | _, nan => false
  | infinite first, infinite second => first == second
  | finite first firstRank, finite second secondRank =>
    firstRank == secondRank && (first == second || firstRank.val == 0)
  | _, _ => false

/-! ### Encoding -/

/-- The encoding as sixty-four bits. -/
def toBits : Binary64 → Nat
  | nan => infinityRank + Nat.pow 2 51
  | infinite negative => infinityRank + signBit negative
  | finite negative rank => rank + signBit negative
where
  /-- The sign bit in its place. -/
  signBit (negative : Bool) : Nat :=
    if negative then Nat.pow 2 63 else 0

/-- The number that the lowest sixty-four bits encode. -/
def ofBits (bits : Nat) : Binary64 :=
  let rank := bits % Nat.pow 2 63
  if rank ≤ infinityRank then ofRank (bits / Nat.pow 2 63 % 2 == 1) rank else nan

/-! ### Reading -/

/-- Reads a number: a decimal, or a word for infinity or for no number in letters of either case,
each perhaps with a sign. -/
def ofText? (text : String) : Option Binary64 :=
  let (negative, unsigned) := splitSign text.toList
  match Decimal.ofDigits? unsigned with
  | some decimal => some (ofDecimal negative decimal)
  | none =>
    match String.ofList (unsigned.map Char.toLower) with
    | "inf" | "infinity" => some (infinite negative)
    | "nan" => some nan
    | _ => none

end Binary64

end Formula
