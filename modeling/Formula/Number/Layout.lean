/-
**How a number is laid out.**

The digits of a number are written positionally, with at least one digit on either side of the
point, or with an exponent after the letter `e`. A `Layout` says from which size on and below which
size a number is written positionally, how the exponent looks, which of two equally near decimals
is meant, and the word for no number. Without places a number is written as the integer that it is
nearest to.
-/

import Formula.Number.Shortest

namespace Formula

/-- The choices in writing a number. The bounds are for the exponent of its leading digit. -/
structure Layout where
  positionalFrom : Int
  positionalBelow : Int
  plusSign : Bool
  exponentWidth : Nat
  tie : Tie
  nan : String
  deriving DecidableEq

namespace Layout

/-- Digits with a point after the one that stands for `10 ^ 0`, given the exponent of the first. -/
def positional (digits : List Char) (exponent : Int) : List Char :=
  if exponent < 0 then
    '0' :: '.' :: List.replicate (-exponent - 1).toNat '0' ++ digits
  else
    let places := exponent.toNat + 1
    let fraction := digits.drop places
    (digits.take places).rightpad places '0' ++
      '.' :: (if fraction.isEmpty then ['0'] else fraction)

/-- The first digit, the others after a point, and the exponent of the first. -/
def scientific (layout : Layout) (digits : List Char) (exponent : Int) : List Char :=
  let fraction := digits.drop 1
  let sign := if exponent < 0 then ['-'] else if layout.plusSign then ['+'] else []
  digits.take 1 ++ (if fraction.isEmpty then [] else '.' :: fraction) ++
    'e' :: sign ++ (digitsOf exponent.natAbs).leftpad layout.exponentWidth '0'

/-- Digits without the zeros at their end; the first digit stays. -/
def significant (digits : List Char) : List Char :=
  digits.take 1 ++ ((digits.drop 1).reverse.dropWhile (· == '0')).reverse

/-- The text of a decimal. -/
def decimalText (layout : Layout) (decimal : Decimal) : List Char :=
  let digits := digitsOf decimal.coefficient
  let exponent := decimal.exponent + (digits.length - 1 : Nat)
  if layout.positionalFrom ≤ exponent ∧ exponent < layout.positionalBelow then
    positional (significant digits) exponent
  else layout.scientific (significant digits) exponent

/-- The text of a number: the shortest decimal that reads back, with a minus where the sign bit is
set. -/
def text (layout : Layout) (number : Binary64) : String :=
  match number with
  | .nan => layout.nan
  | .infinite negative => sign negative ++ "inf"
  | .finite negative rank =>
    sign negative ++ String.ofList (layout.decimalText (Binary64.shortest layout.tie rank))
where
  /-- The sign before a magnitude. -/
  sign (negative : Bool) : String :=
    if negative then "-" else ""

end Layout

/-- The text of a number without places: the nearest integer, of two equally near ones the even one,
with a minus where the sign bit is set. -/
def Binary64.wholeText (number : Binary64) : String :=
  match number with
  | nan => "NaN"
  | infinite negative => Layout.text.sign negative ++ "inf"
  | finite negative rank =>
    Layout.text.sign negative ++
      String.ofList (digitsOf (roundHalfEven (units rank) (Nat.pow 2 1074)))

end Formula
