/-
**Compiling is parsing and finishing.**

What a handler carries beside its state has no part in a parse (`parse_view`), and the journal of
events is carried so. A compilation has the result and leaves the context of a parse with the
builder, followed by the finish.

* `compile_eq`: a compilation as a parse and a finish.
-/

import Formula.Compile
import Formula.Proofs.Dialogue

namespace Formula

variable {σ τ κ ε α : Type}

/-- What a handler carries beside its state has no part in a parse. -/
theorem parse_view {wide : Handler τ ε α} {handler : Handler σ ε α} (view : τ → σ)
    (same_errors : wide.ofError = handler.ofError)
    (answers : ∀ request state, (((wide.answer request).run.run state).1,
      view ((wide.answer request).run.run state).2) = (handler.answer request).run.run (view state))
    (text : String) (options : Options) (state : τ) :
    ((parse wide text options state).1, view (parse wide text options state).2) =
      parse handler text options (view state) := by
  unfold parse
  cases Cursor.ofText? text options with
  | error error =>
    dsimp only
    rw [same_errors]
  | ok cursor => exact Dialogue.run_view view same_errors answers _ state

/-- Keeping a journal beside a handler changes neither the outcome nor the state. -/
theorem parse_journaled (handler : Handler σ ε α) (text : String) (options : Options)
    (journal : Journal σ) :
    ((parse handler.journaled text options journal).1,
        (parse handler.journaled text options journal).2.state) =
      parse handler text options journal.state :=
  parse_view Journal.state rfl (fun _ _ => rfl) text options journal

/-- A compilation is a parse with the builder, and the finish of its value. -/
theorem compile_eq (builder : Builder κ ε α) (text : String) (options : Options) (context : κ) :
    ((compile builder text options context).outcome,
        (compile builder text options context).context) =
      match parse builder.handler text options context with
      | (.ok value, context) => (builder.finish value).run.run context
      | (.error error, context) => (.error error, context) := by
  rw [← parse_journaled builder.handler text options ⟨context, #[.compiling text]⟩]
  unfold compile
  generalize parse builder.handler.journaled text options ⟨context, #[.compiling text]⟩ = parsed
  obtain ⟨outcome, journal⟩ := parsed
  cases outcome <;> rfl

end Formula
