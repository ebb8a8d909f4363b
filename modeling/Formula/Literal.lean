/-
**Literals.**

A literal is an integer, a binary64 number or a text. A number lexeme is read as an integer if it
is one of sixty-four bits, and else as the nearest binary64 number; an integer that is too large and
is not met exactly by that number is told apart (`Literal.inexact?`), since its value changes.
-/

import Formula.Number.Layout

namespace Formula

/-- A literal value. -/
inductive Literal
  | integer (value : Int64)
  | number (value : Binary64)
  | text (content : String)
  deriving DecidableEq

namespace Literal

/-- The canonical layout of numbers: positional from a ten-thousandth up to ten to the sixteenth,
and else with an exponent that has a sign and two digits at least. -/
def canonical : Layout :=
  ⟨-4, 16, true, 2, .upper, "nan"⟩

/-- Reads an integer of sixty-four bits: digits, perhaps after a sign. -/
def integer? (lexeme : String) : Option Int64 :=
  let (negative, digits) := splitSign lexeme.toList
  if !digits.isEmpty && digits.all Char.isDigit then
    let value := if negative then -(digitsValue digits : Int) else digitsValue digits
    if Int64.minValue.toInt ≤ value ∧ value ≤ Int64.maxValue.toInt then some (Int64.ofInt value)
    else none
  else none

/-- Reads a number lexeme: an integer if it can be one, else a binary64 number. -/
def ofLexeme? (lexeme : String) : Option Literal :=
  match integer? lexeme with
  | some value => some (integer value)
  | none => (Binary64.ofText? lexeme).map number

/-- Holds of a lexeme of nothing but digits. -/
def isDigits (lexeme : String) : Bool :=
  !lexeme.isEmpty && lexeme.toList.all Char.isDigit

/-- Digits without the zeros before them; of nothing but zeros one stays. -/
def withoutZeros (digits : List Char) : List Char :=
  let rest := digits.dropWhile (· == '0')
  if rest.isEmpty then ['0'] else rest

/-- Holds of a number that is exactly the integer that a lexeme of digits spells: without places it
is written with the same digits. -/
def isExact (lexeme : String) (value : Binary64) : Bool :=
  value.wholeText == String.ofList (withoutZeros lexeme.toList)

/-- The number that a lexeme is read as, if the lexeme spells an integer which that number is
not. -/
def inexact? (lexeme : String) : Option Binary64 :=
  match ofLexeme? lexeme with
  | some (number value) =>
    if isDigits lexeme && !isExact lexeme value then some value else none
  | _ => none

/-- The canonical text of a literal. A text stands for itself, without quotes. -/
def display : Literal → String
  | integer value => toString value.toInt
  | number value => canonical.text value
  | text content => content

/-- Equality as values: numbers are compared as numbers, and an integer is never a number. -/
def same : Literal → Literal → Bool
  | integer first, integer second => first == second
  | number first, number second => first.sameNumber second
  | text first, text second => first == second
  | _, _ => false

end Literal

end Formula
