/-
**Outlines of expressions.**

The outline of an expression names the kind of every node and of every literal, quotes all text and
writes numbers so that an integer and a whole number differ.
-/

import Formula.Expression
import Formula.Outline
import Formula.Text.Quoted

namespace Formula

/-- The layout of numbers in outlines: positional from a ten-thousandth up to ten to the sixteenth,
else with an exponent that has a sign only if it is negative. -/
def Literal.outlineLayout : Layout :=
  ⟨-4, 16, false, 1, .upper, "NaN"⟩

/-- The outline of a literal. -/
def Literal.outline : Literal → Outline
  | integer value => .group "Integer" [.leaf (toString value.toInt)]
  | number value => .group "Float" [.leaf (outlineLayout.text value)]
  | text content => .group "String" [.leaf (Text.quoted content)]

/-- The outline of a reference. -/
def Reference.outline (reference : Reference) : Outline :=
  .record "VariableReference"
    [("reference", .list (reference.segments.map fun segment => .leaf (Text.quoted segment)))]

namespace Expression

mutual

/-- The outline of an expression. -/
def outline : Expression → Outline
  | literal value => .group "Literal" [value.outline]
  | reference target => .group "Variable" [target.outline]
  | call function arguments =>
    .record "FunctionCall"
      [("reference", function.outline), ("args", .list (outlineAll arguments))]
  | unary operator operand =>
    .record "UnaryOperator"
      [("operator", .leaf (Text.quoted operator)), ("operand", operand.outline)]
  | binary operator left right =>
    .record "BinaryOperator"
      [("operator", .leaf (Text.quoted operator)), ("left", left.outline),
        ("right", right.outline)]

/-- The outlines of expressions. -/
def outlineAll : List Expression → List Outline
  | [] => []
  | first :: rest => first.outline :: outlineAll rest

end

end Expression

end Formula
