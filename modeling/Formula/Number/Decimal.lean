/-
**Decimal numbers and their spelling.**

A decimal is a natural coefficient times a power of ten. `Decimal.ofDigits?` reads an unsigned
spelling: digits, with a point before, among or after them, and then perhaps an exponent.
-/

namespace Formula

/-- The number `coefficient * 10 ^ exponent`. -/
structure Decimal where
  coefficient : Nat
  exponent : Int
  deriving DecidableEq, Inhabited

/-- The value of a digit. -/
def digitValue (digit : Char) : Nat :=
  digit.toNat - '0'.toNat

/-- The natural number that a run of digits spells. -/
def digitsValue (digits : List Char) : Nat :=
  digits.foldl (fun value digit => 10 * value + digitValue digit) 0

/-- The digits of a natural number, none superfluous. -/
def digitsOf (number : Nat) : List Char :=
  Nat.toDigits 10 number

namespace Decimal

/-- A decimal is `numerator / denominator`. -/
def numerator (decimal : Decimal) : Nat :=
  decimal.coefficient * Nat.pow 10 decimal.exponent.toNat

/-- A decimal is `numerator / denominator`. -/
def denominator (decimal : Decimal) : Nat :=
  Nat.pow 10 (-decimal.exponent).toNat

/-! ### Reading -/

/-- The size of an exponent from its digits. It stops growing beyond 65535, where every number of
binary64 has long been left behind. -/
def exponentSize (digits : List Char) : Nat :=
  digits.foldl (fun size digit => if size < 65536 then 10 * size + digitValue digit else size) 0

/-- Reads the digits of an exponent, which must be all that is left. -/
def exponentDigits? (text : List Char) : Option Nat :=
  if !text.isEmpty && text.all Char.isDigit then some (exponentSize text) else none

/-- Reads an exponent, which must be all that is left; nothing is the exponent zero. -/
def exponent? : List Char → Option Int
  | [] => some 0
  | letter :: rest =>
    if letter == 'e' || letter == 'E' then
      match rest with
      | '-' :: digits => (exponentDigits? digits).map fun size => -(size : Int)
      | '+' :: digits => (exponentDigits? digits).map fun size => (size : Int)
      | digits => (exponentDigits? digits).map fun size => (size : Int)
    else none

/-- The digits after a point, and what comes after them. -/
def fraction : List Char → List Char × List Char
  | '.' :: rest => (rest.takeWhile Char.isDigit, rest.dropWhile Char.isDigit)
  | text => ([], text)

/-- Reads an unsigned decimal, which must be the whole text and have a digit. -/
def ofDigits? (text : List Char) : Option Decimal :=
  let whole := text.takeWhile Char.isDigit
  let places := fraction (text.dropWhile Char.isDigit)
  if whole.isEmpty && places.1.isEmpty then none
  else
    (exponent? places.2).map fun exponent =>
      ⟨digitsValue (whole ++ places.1), exponent - places.1.length⟩

end Decimal

/-- Splits the sign off a text; true stands for a minus. -/
def splitSign : List Char → Bool × List Char
  | '-' :: rest => (true, rest)
  | '+' :: rest => (false, rest)
  | text => (false, text)

end Formula
