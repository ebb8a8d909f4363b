/-
**Compiling a text.**

`parse` reads a whole text with a handler; `compile` reads it with a builder in a context, finishes
the value, and reports events. A `Compiler` is a builder with a context of its own that lives from
one compilation to the next.
-/

import Formula.Builder
import Formula.Event
import Formula.Parser

namespace Formula

variable {σ κ ε α : Type}

/-- Reads a whole text with a handler. -/
def parse (handler : Handler σ ε α) (text : String) (options : Options) (state : σ) :
    Except ε α × σ :=
  match Cursor.ofText? text options with
  | .error error => (.error (handler.ofError (.refused error)), state)
  | .ok cursor =>
    let run := (Parser.complete options.depthLimit cursor).run handler state
    (run.outcome, run.state)

/-- How a compilation went: its result, the context it left, and the events it reported. -/
structure Compilation (κ ε α : Type) where
  outcome : Except ε α
  context : κ
  events : Array Event

/-- Compiles a text with a builder in a context. -/
def compile (builder : Builder κ ε α) (text : String) (options : Options) (context : κ) :
    Compilation κ ε α :=
  match parse builder.handler.journaled text options ⟨context, #[.compiling text]⟩ with
  | (.error error, journal) => ⟨.error error, journal.state, journal.events⟩
  | (.ok value, journal) =>
    let (outcome, context) := (builder.finish value).run.run journal.state
    ⟨outcome, context, journal.events⟩

/-! ### Compilers -/

/-- A builder with a context that lives from one compilation to the next, and options. -/
structure Compiler (κ ε α : Type) where
  builder : Builder κ ε α
  context : κ
  options : Options := {}

namespace Compiler

/-- Compiles a text in the compiler's own context. -/
def compile (compiler : Compiler κ ε α) (text : String) : Except ε α × Compiler κ ε α :=
  let run := Formula.compile compiler.builder text compiler.options compiler.context
  (run.outcome, { compiler with context := run.context })

/-- Compiles a text in another context. -/
def compileIn (compiler : Compiler κ ε α) (text : String) (context : κ) : Except ε α × κ :=
  let run := Formula.compile compiler.builder text compiler.options context
  (run.outcome, run.context)

end Compiler

/-! ### Trees -/

/-- The tree of a text, or why it has none. -/
def Expression.ofText? (text : String) (options : Options := {}) : Except Error Expression :=
  (compile (Builder.tree id) text options ()).outcome

end Formula
