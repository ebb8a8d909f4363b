/-
**Quoted text.**

A text between double quotes, on one line and readable: the quote, the backslash and four control
characters have short escapes, and every other character that has no printed shape, shows nothing or
extends the one before it is written as `\u` with its code point in hexadecimal between braces.
-/

import Formula.Text.Unprintable
import Formula.Text.Extending
import Formula.Text.Ignorable

namespace Formula.Text

/-- The lower-case hexadecimal digits of a number, none superfluous. -/
def hexadecimal (number : Nat) : List Char :=
  Nat.toDigits 16 number

/-- Holds of a character that stands for itself between quotes. -/
def isPlain (character : Char) : Bool :=
  (' ' ≤ character && character ≤ '~') ||
    !(isUnprintable character || isIgnorable character || isExtending character)

/-- A character as it is written between double quotes. -/
def quotedCharacter : Char → List Char
  | '"' => ['\\', '"']
  | '\\' => ['\\', '\\']
  | '\n' => ['\\', 'n']
  | '\r' => ['\\', 'r']
  | '\t' => ['\\', 't']
  | '\x00' => ['\\', '0']
  | character =>
    if isPlain character then [character]
    else ['\\', 'u', '\x7b'] ++ hexadecimal character.toNat ++ ['\x7d']

/-- A text between double quotes. -/
def quoted (text : String) : String :=
  String.ofList ('"' :: text.toList.flatMap quotedCharacter ++ ['"'])

example : quoted "it's \"\\\" é" = "\"it's \\\"\\\\\\\" é\"" := by decide +kernel

example : quoted "ᄀ\u115fﾞ" = "\"ᄀ\\u\x7b115f\x7dﾞ\"" := by decide +kernel

example : quoted "a\u0301\u00ad\x00" = "\"a\\u\x7b301\x7d\\u\x7bad\x7d\\0\"" := by decide +kernel

end Formula.Text
