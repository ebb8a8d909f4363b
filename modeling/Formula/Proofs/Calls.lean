/-
**The calls of a handler.**

A record is kept beside a handler: what it was asked, and what came of it, call after call. The
record has no part in the answers (`parse_recorded`), and the calls of a dialogue can be read off it
by recursion (`Dialogue.calls`).

* `parseCalls`: the calls that a parse makes.
* `parseCalls_eq`: the calls of a parse are those of its dialogue.
-/

import Formula.Proofs.Compile

namespace Formula

variable {σ ε α β : Type}

/-- A call of a handler: what it was asked, and what came of it. -/
structure Call (ε α : Type) where
  request : Request α
  result : Except ε request.Answer

/-- A state with the calls made so far. -/
structure Record (σ ε α : Type) where
  state : σ
  calls : List (Call ε α)

/-- Keeps a record beside a handler. -/
def Handler.recorded (handler : Handler σ ε α) : Handler (Record σ ε α) ε α where
  ofError := handler.ofError
  answer request := ExceptT.mk fun record =>
    let (result, state) := (handler.answer request).run.run record.state
    (result, ⟨state, record.calls ++ [⟨request, result⟩]⟩)

theorem Handler.recorded_answer (handler : Handler σ ε α) (request : Request α)
    (record : Record σ ε α) :
    (handler.recorded.answer request).run.run record =
      (((handler.answer request).run.run record.state).1,
        ⟨((handler.answer request).run.run record.state).2, record.calls ++
          [⟨request, ((handler.answer request).run.run record.state).1⟩]⟩) :=
  rfl

/-- The calls that a parse makes, in order. -/
def parseCalls (handler : Handler σ ε α) (text : String) (options : Options) (state : σ) :
    List (Call ε α) :=
  (parse handler.recorded text options ⟨state, []⟩).2.calls

/-- Keeping a record beside a handler changes neither the outcome nor the state. -/
theorem parse_recorded (handler : Handler σ ε α) (text : String) (options : Options)
    (record : Record σ ε α) :
    ((parse handler.recorded text options record).1,
        (parse handler.recorded text options record).2.state) =
      parse handler text options record.state :=
  parse_view Record.state rfl (fun _ _ => rfl) text options record

/-- The calls of a dialogue. The first one that fails is the last. -/
def Dialogue.calls (handler : Handler σ ε α) : Dialogue α β → σ → List (Call ε α)
  | done _ _, _ => []
  | ask _ request resume, state =>
    match (handler.answer request).run.run state with
    | (.ok answer, state) => ⟨request, .ok answer⟩ :: (resume answer).calls handler state
    | (.error error, _) => [⟨request, .error error⟩]

theorem Dialogue.run_recorded (handler : Handler σ ε α) (dialogue : Dialogue α β)
    (record : Record σ ε α) :
    (dialogue.run handler.recorded record).state.calls =
      record.calls ++ dialogue.calls handler record.state := by
  induction dialogue generalizing record with
  | done cursor outcome => exact (List.append_nil _).symm
  | ask cursor request resume step =>
    simp only [run, calls, handler.recorded_answer]
    generalize (handler.answer request).run.run record.state = answered
    obtain ⟨outcome, after⟩ := answered
    cases outcome with
    | ok answer =>
      rw [step, List.append_assoc]
      rfl
    | error error => rfl

/-- The calls of a parse are those of its dialogue. -/
theorem parseCalls_eq (handler : Handler σ ε α) (text : String) (options : Options) (state : σ) :
    parseCalls handler text options state =
      match Cursor.ofText? text options with
      | .error _ => []
      | .ok cursor => (Parser.complete options.depthLimit cursor).calls handler state := by
  rw [parseCalls, parse]
  cases Cursor.ofText? text options with
  | error error => rfl
  | ok cursor => exact Dialogue.run_recorded handler _ _

end Formula
