/-
**The operators of the language.**

Seventeen operators, each with the one symbol it is written with and known by. `symbol_injective`
says that the symbol determines the operator.
-/

namespace Formula

/-- An operator, binary or unary. -/
inductive Operator
  | or
  | and
  | not
  | equal
  | notEqual
  | less
  | lessEqual
  | greater
  | greaterEqual
  | bitOr
  | bitAnd
  | plus
  | minus
  | times
  | divide
  | remainder
  | complement
  deriving DecidableEq

namespace Operator

/-- What an operator is written as. -/
def symbol : Operator → String
  | or => "or"
  | and => "and"
  | not => "not"
  | equal => "=="
  | notEqual => "!="
  | less => "<"
  | lessEqual => "<="
  | greater => ">"
  | greaterEqual => ">="
  | bitOr => "|"
  | bitAnd => "&"
  | plus => "+"
  | minus => "-"
  | times => "*"
  | divide => "/"
  | remainder => "%"
  | complement => "~"

theorem symbol_injective {first second : Operator} (same : first.symbol = second.symbol) :
    first = second := by
  cases first <;> cases second <;> first | rfl | exact absurd same (by decide)

end Operator

end Formula
