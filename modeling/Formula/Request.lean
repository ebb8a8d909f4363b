/-
**What a parse asks for.**

A parse builds nothing itself. For every part of the expression it has read, children before
parents, it asks a handler for the value of that part, given the values of the children. There are
five kinds of request; all are answered by a value but `reference`, which is answered by a
reference.

A handler answers requests. It keeps a state and may fail, with errors of its own or with those of
the library.
-/

import Formula.Error
import Formula.Reference

namespace Formula

/-- An operand without operators of its own: a literal, a reference with the arguments of the call
if it is called, or an expression in parentheses. -/
inductive Atom (α : Type)
  | literal (value : α)
  | reference (reference : Reference) (arguments : Option (List α))
  | group (value : α)

/-- What a layer of the grammar matched: one operand alone, an operand with the operators and
operands after it, or an operator before an operand. -/
inductive Reduction (α : Type)
  | passthrough (operand : α)
  | binary (first : α) (rest : List (String × α))
  | unary (operator : String) (operand : α)

/-- The shape of what a layer matched. -/
def Reduction.shape {α : Type} : Reduction α → Shape
  | passthrough _ => .passthrough
  | binary _ _ => .binary
  | unary _ _ => .unary

/-- A question of a parse to its handler. -/
inductive Request (α : Type)
  | number (lexeme : String)
  | text (content : String)
  | reference (segments : List String)
  | atom (atom : Atom α)
  | reduce (rule : Rule) (reduction : Reduction α)

/-- What answers a request. -/
abbrev Request.Answer {α : Type} : Request α → Type
  | reference _ => Reference
  | _ => α

/-- A computation that keeps a state and may fail; the state survives a failure. -/
abbrev Action (σ ε β : Type) : Type :=
  ExceptT ε (StateM σ) β

/-- Answers requests, and takes the errors of the library among its own. -/
structure Handler (σ ε α : Type) where
  ofError : Error → ε
  answer : (request : Request α) → Action σ ε request.Answer

end Formula
