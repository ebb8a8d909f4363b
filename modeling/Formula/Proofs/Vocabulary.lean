/-
**Expressions of a vocabulary.**

A vocabulary says which literals, which references and which operators an expression may have. What
it does not say is free: how many arguments a call has, and what stands below what.

* `Expression.Within`: the expressions of a vocabulary.
* `Expression.Within.mono`, `Expression.Within.chain`: wider vocabularies, and chains.
-/

import Formula.Expression
import Formula.Rule

namespace Formula

/-- What literals, references and operators may stand in an expression. -/
structure Vocabulary where
  literal : Literal → Prop
  reference : Reference → Prop
  operator : Kind → String → Prop

/-- Holds of the expressions of a vocabulary. -/
inductive Expression.Within (vocabulary : Vocabulary) : Expression → Prop
  | literal {value : Literal} (known : vocabulary.literal value) :
    Within vocabulary (.literal value)
  | reference {target : Reference} (known : vocabulary.reference target) :
    Within vocabulary (.reference target)
  | call {function : Reference} {arguments : List Expression}
    (known : vocabulary.reference function)
    (each : ∀ argument ∈ arguments, Within vocabulary argument) :
    Within vocabulary (.call function arguments)
  | unary {operator : String} {operand : Expression} (known : vocabulary.operator .unary operator)
    (inside : Within vocabulary operand) : Within vocabulary (.unary operator operand)
  | binary {operator : String} {left right : Expression}
    (known : vocabulary.operator .binary operator) (before : Within vocabulary left)
    (after : Within vocabulary right) : Within vocabulary (.binary operator left right)

namespace Expression.Within

variable {vocabulary wider : Vocabulary}

/-- An expression of a vocabulary is one of every wider vocabulary. -/
theorem mono (literals : ∀ value, vocabulary.literal value → wider.literal value)
    (references : ∀ target, vocabulary.reference target → wider.reference target)
    (operators : ∀ kind symbol, vocabulary.operator kind symbol → wider.operator kind symbol)
    {expression : Expression} (within : expression.Within vocabulary) :
    expression.Within wider := by
  induction within with
  | literal known => exact .literal (literals _ known)
  | reference known => exact .reference (references _ known)
  | call known _ each => exact .call (references _ known) each
  | unary known _ inside => exact .unary (operators _ _ known) inside
  | binary known _ _ before after => exact .binary (operators _ _ known) before after

/-- A chain has the vocabulary of its operands and operators. -/
theorem chain {first : Expression} {rest : List (String × Expression)}
    (begins : first.Within vocabulary)
    (each : ∀ link ∈ rest, vocabulary.operator .binary link.1 ∧ link.2.Within vocabulary) :
    (rest.foldl (fun left link => .binary link.1 left link.2) first).Within vocabulary := by
  induction rest generalizing first with
  | nil => exact begins
  | cons link rest step =>
    obtain ⟨here, more⟩ := List.forall_mem_cons.mp each
    exact step (.binary here.1 begins here.2) more

end Expression.Within

/-- Holds of the numbers whose sign bit is not set: the finite ones and the infinity. -/
def Binary64.SignClear : Binary64 → Prop
  | nan => False
  | infinite negative => negative = false
  | finite negative _ => negative = false

end Formula
