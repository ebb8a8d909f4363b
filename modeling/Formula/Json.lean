/-
**JSON values and their text.**

Objects list their fields in the order of their names, and are written in it. Text is written with
the escapes that JSON requires and no others. Floating-point numbers are written with the fewest
digits that read back.
-/

import Formula.Number.Layout
import Formula.Text.Quoted

namespace Formula

/-- A JSON value; the fields of an object are listed in the order of their names. -/
inductive Json
  | null
  | integer (value : Int)
  | number (value : Binary64)
  | text (content : String)
  | array (items : List Json)
  | object (fields : List (String × Json))

namespace Json

/-- The layout of numbers: positional from a hundred-thousandth up to ten to the sixteenth, else
with an exponent that has a sign. -/
def numberLayout : Layout :=
  ⟨-5, 16, true, 1, .even, "null"⟩

/-- A character as it is written in a text. -/
def escaped : Char → List Char
  | '"' => ['\\', '"']
  | '\\' => ['\\', '\\']
  | '\x08' => ['\\', 'b']
  | '\x0c' => ['\\', 'f']
  | '\n' => ['\\', 'n']
  | '\r' => ['\\', 'r']
  | '\t' => ['\\', 't']
  | character =>
    if character < ' ' then
      ['\\', 'u'] ++ (Text.hexadecimal character.toNat).leftpad 4 '0'
    else [character]

/-- A text between quotes. -/
def quoted (text : String) : String :=
  String.ofList ('"' :: text.toList.flatMap escaped ++ ['"'])

/-! ### On one line -/

mutual

/-- A value on one line, without blanks. -/
def compact : Json → String
  | null => "null"
  | integer value => toString value
  | number value => numberLayout.text value
  | text content => quoted content
  | array items => "[" ++ ",".intercalate (compactItems items) ++ "]"
  | object fields => "\x7b" ++ ",".intercalate (compactFields fields) ++ "\x7d"

/-- Values on one line each. -/
def compactItems : List Json → List String
  | [] => []
  | first :: rest => first.compact :: compactItems rest

/-- Fields on one line each. -/
def compactFields : List (String × Json) → List String
  | [] => []
  | (name, value) :: rest => (quoted name ++ ":" ++ value.compact) :: compactFields rest

end

/-! ### On many lines -/

/-- Entries between brackets, each on a line of its own; nothing between brackets without
entries. -/
def block (opening closing : String) (indent : String) (entries : List String) : String :=
  if entries.isEmpty then opening ++ closing
  else
    let inner := indent ++ "  "
    opening ++ "\n" ++ ",\n".intercalate (entries.map (inner ++ ·)) ++ "\n" ++ indent ++ closing

mutual

/-- A value on many lines, where all lines but the first are indented. -/
def indented (indent : String) : Json → String
  | null => "null"
  | integer value => toString value
  | number value => numberLayout.text value
  | text content => quoted content
  | array items => block "[" "]" indent (indentedItems (indent ++ "  ") items)
  | object fields => block "\x7b" "\x7d" indent (indentedFields (indent ++ "  ") fields)

/-- Values on many lines. -/
def indentedItems (indent : String) : List Json → List String
  | [] => []
  | first :: rest => first.indented indent :: indentedItems indent rest

/-- Fields on many lines. -/
def indentedFields (indent : String) : List (String × Json) → List String
  | [] => []
  | (name, value) :: rest =>
    (quoted name ++ ": " ++ value.indented indent) :: indentedFields indent rest

end

/-- A value on many lines, indented by two blanks a level. -/
def pretty (value : Json) : String :=
  value.indented ""

end Json

end Formula
