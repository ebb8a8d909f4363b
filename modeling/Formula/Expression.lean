/-
**Expressions as trees.**

The tree that a text stands for: literals and references at the leaves, and calls, operators before
an operand and operators between two operands above them. Parentheses leave no trace. A chain
leans to the left: `a - b - c` is `(a - b) - c`.
-/

import Formula.Literal
import Formula.Reference

namespace Formula

/-- An expression. Operators are known by their symbols. -/
inductive Expression
  | literal (value : Literal)
  | reference (target : Reference)
  | call (function : Reference) (arguments : List Expression)
  | unary (operator : String) (operand : Expression)
  | binary (operator : String) (left right : Expression)

namespace Expression

instance : Inhabited Expression :=
  ⟨literal (.text "")⟩

/-! ### Canonical text -/

/-- The canonical text of a call, from the texts of its arguments. -/
def callText (function : Reference) (arguments : List String) : String :=
  function.name ++ "(" ++ ", ".intercalate arguments ++ ")"

/-- The canonical text of an operator before an operand. -/
def unaryText (operator operand : String) : String :=
  s!"({operator} {operand})"

/-- The canonical text of an operator between two operands. -/
def binaryText (operator left right : String) : String :=
  s!"({left} {operator} {right})"

mutual

/-- The canonical text of an expression: every operator with its operands in parentheses. -/
def display : Expression → String
  | literal value => value.display
  | reference target => target.name
  | call function arguments => callText function (displayAll arguments)
  | unary operator operand => unaryText operator operand.display
  | binary operator left right => binaryText operator left.display right.display

/-- The canonical texts of expressions. -/
def displayAll : List Expression → List String
  | [] => []
  | first :: rest => first.display :: displayAll rest

end

/-! ### Equality as values -/

mutual

/-- Equality of trees, where literals are compared as values. -/
def same : Expression → Expression → Bool
  | literal first, literal second => first.same second
  | reference first, reference second => first == second
  | call function arguments, call other others =>
    function == other && sameAll arguments others
  | unary operator operand, unary other second => operator == other && operand.same second
  | binary operator left right, binary other first second =>
    operator == other && left.same first && right.same second
  | _, _ => false

/-- Equality of lists of trees. -/
def sameAll : List Expression → List Expression → Bool
  | [], [] => true
  | first :: rest, second :: others => first.same second && sameAll rest others
  | _, _ => false

end

end Expression

end Formula
