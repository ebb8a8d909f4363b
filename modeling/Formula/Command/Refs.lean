/-
**The command that lists references.**

The references of a list of expressions are gathered into one usage. The first expression that does
not compile ends the command; expressions are counted from one.
-/

import Formula.Command.Compile
import Formula.Usage

namespace Formula.Command

/-- Compiles expressions one after another, counted from an index on. -/
def compileAll (compiler : Compiler Usage Error Expression) :
    (index : Nat) → List String → Except Failure Usage
  | _, [] => .ok compiler.context
  | index, expression :: rest =>
    match compiler.compile expression with
    | (.ok _, compiler) => compileAll compiler (index + 1) rest
    | (.error error, _) => .error (.refusedAt index error)

/-- Gathers the references of expressions, of which there must be one. -/
def refs (expressions : List String) (options : Options) : Except Failure Usage :=
  if expressions.isEmpty then .error .noInput
  else compileAll { builder := .collecting id, context := {}, options } 1 expressions

end Formula.Command
