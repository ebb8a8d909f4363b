/-
**The layers of the grammar.**

An expression is read through nine layers of operators, from the loosest to the tightest. A binary
layer is a chain of operands of the next layer; a unary layer is a run of operators before one
operand of the next layer. No operator belongs to two layers of one kind (`operators_disjoint`);
plus and minus belong to a binary layer and to a unary one.
-/

import Formula.Operator

namespace Formula

/-- How the operators of a layer stand to their operands. -/
inductive Kind
  | binary
  | unary
  deriving DecidableEq

/-- The word for a kind of layer. -/
def Kind.word : Kind → String
  | binary => "Binary"
  | unary => "Unary"

/-- A layer of the grammar. -/
inductive Rule
  | disjunction
  | conjunction
  | negation
  | comparison
  | bitOr
  | bitAnd
  | sum
  | product
  | sign
  deriving DecidableEq

namespace Rule

/-- Negation and signs come before their operand; all other layers are chains. -/
def kind : Rule → Kind
  | negation | sign => .unary
  | _ => .binary

/-- The name a layer is reported under. -/
def name : Rule → String
  | disjunction => "logical_or"
  | conjunction => "logical_and"
  | negation => "logical_not"
  | comparison => "comparison"
  | bitOr => "bitwise_or"
  | bitAnd => "bitwise_and"
  | sum => "arith_term"
  | product => "arith_factor"
  | sign => "sign"

/-- The operators of a layer. -/
def operators : Rule → List Operator
  | disjunction => [.or]
  | conjunction => [.and]
  | negation => [.not]
  | comparison => [.equal, .notEqual, .less, .lessEqual, .greater, .greaterEqual]
  | bitOr => [.bitOr]
  | bitAnd => [.bitAnd]
  | sum => [.plus, .minus]
  | product => [.times, .divide, .remainder]
  | sign => [.minus, .plus, .complement]

/-- All layers, loosest first: each is made of operands of the layers after it. -/
def precedence : List Rule :=
  [disjunction, conjunction, negation, comparison, bitOr, bitAnd, sum, product, sign]

theorem mem_precedence (rule : Rule) : rule ∈ precedence := by
  cases rule <;> decide

theorem operators_disjoint {first second : Rule} {operator : Operator}
    (same_kind : first.kind = second.kind) (in_first : operator ∈ first.operators)
    (in_second : operator ∈ second.operators) : first = second := by
  cases first <;> cases second <;> simp_all [kind, operators] <;> grind

end Rule

end Formula
