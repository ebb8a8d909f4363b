/-
**Outlines of structured values.**

An outline shows how a value is made: a leaf, a named group of parts, a record of named fields, or a
list. It is written on one line, or on many lines with four blanks a level and a comma after every
part.
-/

namespace Formula

/-- How a value is made. -/
inductive Outline
  | leaf (text : String)
  | group (name : String) (parts : List Outline)
  | record (name : String) (fields : List (String × Outline))
  | list (items : List Outline)

namespace Outline

/-! ### On one line -/

mutual

/-- An outline on one line. -/
def inline : Outline → String
  | leaf text => text
  | group name parts => name ++ "(" ++ ", ".intercalate (inlineParts parts) ++ ")"
  | record name fields =>
    name ++ " \x7b " ++ ", ".intercalate (inlineFields fields) ++ " \x7d"
  | list items => "[" ++ ", ".intercalate (inlineParts items) ++ "]"

/-- Outlines on one line each. -/
def inlineParts : List Outline → List String
  | [] => []
  | first :: rest => first.inline :: inlineParts rest

/-- Fields on one line each. -/
def inlineFields : List (String × Outline) → List String
  | [] => []
  | (name, value) :: rest => (name ++ ": " ++ value.inline) :: inlineFields rest

end

/-! ### On many lines -/

/-- Entries between brackets, each on a line of its own with a comma after it; nothing between
brackets without entries. -/
def block (opening closing : String) (indent : String) (entries : List String) : String :=
  if entries.isEmpty then opening ++ closing
  else
    opening ++ "\n" ++ String.join (entries.map fun entry => indent ++ "    " ++ entry ++ ",\n") ++
      indent ++ closing

mutual

/-- An outline on many lines, where all lines but the first are indented. -/
def indented (indent : String) : Outline → String
  | leaf text => text
  | group name parts => name ++ block "(" ")" indent (indentedParts (indent ++ "    ") parts)
  | record name fields =>
    name ++ block " \x7b" "\x7d" indent (indentedFields (indent ++ "    ") fields)
  | list items => block "[" "]" indent (indentedParts (indent ++ "    ") items)

/-- Outlines on many lines. -/
def indentedParts (indent : String) : List Outline → List String
  | [] => []
  | first :: rest => first.indented indent :: indentedParts indent rest

/-- Fields on many lines. -/
def indentedFields (indent : String) : List (String × Outline) → List String
  | [] => []
  | (name, value) :: rest =>
    (name ++ ": " ++ value.indented indent) :: indentedFields indent rest

end

/-- An outline on many lines. -/
def pretty (outline : Outline) : String :=
  outline.indented ""

end Outline

end Formula
