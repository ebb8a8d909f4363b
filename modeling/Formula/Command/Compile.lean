/-
**The command that compiles an expression.**

One expression is compiled to its tree, and the tree is shown in one of four formats.
-/

import Formula.Compile
import Formula.Expression.Json
import Formula.Expression.Outline

namespace Formula

/-- How a tree is shown. -/
inductive Format
  | text
  | debug
  | json
  | jsonPretty
  deriving DecidableEq

namespace Format

/-- The format with a name. -/
def ofName? : String → Option Format
  | "text" => some text
  | "debug" => some debug
  | "json" => some json
  | "json-pretty" => some jsonPretty
  | _ => none

/-- Shows a tree. -/
def render (format : Format) (expression : Expression) : String :=
  match format with
  | text => expression.display
  | debug => expression.outline.pretty
  | json => expression.toJson.compact
  | jsonPretty => expression.toJson.pretty

end Format

namespace Command

/-- Why a command fails. -/
inductive Failure
  | refused (error : Error)
  | refusedAt (index : Nat) (error : Error)
  | unreadableInput
  | noInput
  deriving DecidableEq

/-- The message for a failed command. -/
def Failure.message : Failure → String
  | refused error => s!"Compile error: {error.message}"
  | refusedAt index error => s!"Compile error in expression {index}: {error.message}"
  | unreadableInput => "IO error: stream did not contain valid UTF-8"
  | noInput => "No expression provided. Pass one as an argument or pipe expressions to stdin."

/-- Compiles an expression and shows its tree. -/
def compile (expression : String) (format : Format) (options : Options) : Except Failure String :=
  match Expression.ofText? expression options with
  | .ok tree => .ok (format.render tree)
  | .error error => .error (.refused error)

end Command

end Formula
