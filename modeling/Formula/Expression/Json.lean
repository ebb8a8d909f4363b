/-
**Expressions as JSON.**

An expression becomes an object with a field named for its kind, which holds the literal, the dotted
name or the symbol, and a field for each part inside. A number that is not finite becomes null.
-/

import Formula.Expression
import Formula.Json

namespace Formula

/-- A literal as JSON. -/
def Literal.toJson : Literal → Json
  | integer value => .integer value.toInt
  | number (.finite negative rank) => .number (.finite negative rank)
  | number _ => .null
  | text content => .text content

namespace Expression

mutual

/-- An expression as JSON. -/
def toJson : Expression → Json
  | literal value => .object [("literal", value.toJson)]
  | reference target => .object [("variable", .text target.name)]
  | call function arguments =>
    .object [("args", .array (toJsonAll arguments)), ("call", .text function.name)]
  | unary operator operand =>
    .object [("operand", operand.toJson), ("unary", .text operator)]
  | binary operator left right =>
    .object [("binary", .text operator), ("left", left.toJson), ("right", right.toJson)]

/-- Expressions as JSON. -/
def toJsonAll : List Expression → List Json
  | [] => []
  | first :: rest => first.toJson :: toJsonAll rest

end

end Expression

end Formula
