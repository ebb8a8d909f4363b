/-
**Reading a text in steps.**

A parser of a text can be asked for the next expression, or for one that the input ends with, and
then be asked again, also where it has failed. Between its steps it keeps its cursor and the state
of its handler.
-/

import Formula.Parser

namespace Formula

variable {σ ε α : Type}

/-- What a parser can be asked for: the next expression, or one that the input ends with. -/
inductive Parser.Step
  | expression
  | complete

/-- The parser that makes a step. -/
def Parser.Step.parser (limit : Nat) : Step → Parser α α
  | expression => Parser.expression limit
  | complete => Parser.complete limit

/-- A parser between two steps. -/
structure Parsing (σ : Type) where
  cursor : Cursor
  state : σ

namespace Parsing

/-- A parser at the beginning of a text. -/
def ofText? (text : String) (options : Options) (state : σ) : Except ParseError (Parsing σ) := do
  return ⟨← Cursor.ofText? text options, state⟩

/-- Makes a step. -/
def step (handler : Handler σ ε α) (limit : Nat) (parsing : Parsing σ) (step : Parser.Step) :
    Except ε α × Parsing σ :=
  let run := (step.parser limit parsing.cursor).run handler parsing.state
  (run.outcome, ⟨run.cursor, run.state⟩)

/-- Makes steps one after another, whether they fail or not. -/
def steps (handler : Handler σ ε α) (limit : Nat) (parsing : Parsing σ) :
    List Parser.Step → List (Except ε α) × Parsing σ
  | [] => ([], parsing)
  | first :: rest =>
    let (outcome, after) := parsing.step handler limit first
    let (outcomes, last) := steps handler limit after rest
    (outcome :: outcomes, last)

end Parsing

end Formula
