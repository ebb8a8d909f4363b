/-
**What a compilation reports while it runs.**

An event is reported at the beginning of a compilation and before a request is answered: every layer
reports what it matched, every call its function and the number of its arguments, and every integer
that is too large to be kept exactly the number it is read as. The events of a request depend on the
request alone (`Request.events`), so a journal can be kept beside any handler.
-/

import Formula.Dialogue
import Formula.Literal

namespace Formula

/-- How much an event matters. -/
inductive Level
  | trace
  | debug
  | warning
  deriving DecidableEq

/-- Something a compilation reports. -/
inductive Event
  | compiling (text : String)
  | call (function : String) (arguments : Nat)
  | chain (rule : Rule) (operators : Nat)
  | layer (rule : Rule) (shape : Shape)
  | inexact (lexeme : String) (value : Binary64)
  deriving DecidableEq

namespace Event

/-- The level of an event. -/
def level : Event → Level
  | compiling _ => .debug
  | call .. | chain .. | layer .. => .trace
  | inexact .. => .warning

/-- The message of an event. -/
def message : Event → String
  | compiling _ => "compiling"
  | call .. => "call"
  | chain .. | layer .. => "reduce"
  | inexact .. => "integer literal exceeds i64 and loses precision as a float"

end Event

/-- The events reported before a request is answered. -/
def Request.events {α : Type} : Request α → List Event
  | number lexeme => (Literal.inexact? lexeme).toList.map fun value => .inexact lexeme value
  | atom (.reference function (some arguments)) => [.call function.name arguments.length]
  | reduce rule (.binary _ rest) => [.chain rule rest.length]
  | reduce rule reduction => [.layer rule reduction.shape]
  | _ => []

/-- A state with the events reported so far. -/
structure Journal (σ : Type) where
  state : σ
  events : Array Event

/-- Keeps a journal beside a handler. -/
def Handler.journaled {σ ε α : Type} (handler : Handler σ ε α) : Handler (Journal σ) ε α where
  ofError := handler.ofError
  answer request := ExceptT.mk fun journal =>
    let (result, state) := (handler.answer request).run.run journal.state
    (result, ⟨state, journal.events ++ request.events⟩)

end Formula
