/-
**What the program answers.**

An invocation is answered by an exit code, a text for the output and a text for the messages. The
input matters only where no expression is given: `compile` takes all of it as one expression, and
`refs` takes each of its lines that is not blank.
-/

import Formula.Command.Arguments
import Formula.Command.Overview
import Formula.Command.Refs
import Formula.Text.Blank

namespace Formula.Command

/-- What the program leaves behind. -/
structure Response where
  code : Nat
  output : String
  message : String
  deriving DecidableEq

namespace Response

/-- The answer of a command that succeeds with an output or fails. -/
def ofResult : Except Failure String → Response
  | .ok output => ⟨0, output, ""⟩
  | .error failure => ⟨1, "", failure.message ++ "\n"⟩

/-- The answer to arguments that do not fit. -/
def usage : Response :=
  ⟨2, "", "Usage: exprc <compile [EXPR] [--format FORMAT] [--no-comments] [--max-depth N] | " ++
    "refs [EXPR...] | grammar>\n"⟩

end Response

namespace Invocation

/-- Holds of an invocation that is answered from the input. -/
def readsInput : Invocation → Bool
  | compile none _ _ => true
  | refs [] => true
  | _ => false

/-- The result of an invocation, given the input, unless that is no text. -/
def result (invocation : Invocation) (input : Option String) : Except Failure String :=
  match invocation with
  | version => .ok "exprc 0.1.0\n"
  | compile expression format options => do
    let expression ← (expression <|> input).elim (.error .unreadableInput) .ok
    return (← Command.compile expression format options) ++ "\n"
  | refs [] => do
    let text ← input.elim (.error .unreadableInput) .ok
    return (← Command.refs (Text.entries text) {}).report
  | refs expressions => return (← Command.refs expressions {}).report
  | overview => .ok Command.overview

end Invocation

/-- The answer of the program to its arguments, given the input, unless that is no text. -/
def respond (arguments : List String) (input : Option String) : Response :=
  match Invocation.ofArguments? arguments with
  | some invocation => .ofResult (invocation.result input)
  | none => .usage

end Formula.Command
