/-
**The first failure of a handler ends the parse.**

Let one handler answer as another does a number of times, and fail at the call after them
(`Handler.FailsAfter`). If the parse makes that call at all, it is the last one, and its error is
the error of the parse, whatever is wrong with the text further on. If the parse makes fewer calls,
the two handlers are not told apart.

* `Dialogue.first_failure`: the same for every dialogue, by induction on it.
* `parse_first_failure`: for the parse of every text.
-/

import Formula.Proofs.Calls

namespace Formula

variable {σ τ ε α β : Type}

/-- Answers as another handler a number of times, whatever it is asked, and then fails. -/
def Handler.FailsAfter (failing : Handler τ ε α) (error : ε) (handler : Handler σ ε α) :
    Nat → τ → σ → Prop
  | 0, state', _ => ∀ request, ((failing.answer request).run.run state').1 = .error error
  | count + 1, state', state => ∀ request,
    ((failing.answer request).run.run state').1 = ((handler.answer request).run.run state).1 ∧
      failing.FailsAfter error handler count ((failing.answer request).run.run state').2
        ((handler.answer request).run.run state).2

/-- A handler that counts its calls, and fails once it has answered a number of them. -/
def Handler.failingAfter (handler : Handler σ ε α) (count : Nat) (error : ε) :
    Handler (σ × Nat) ε α where
  ofError := handler.ofError
  answer request := ExceptT.mk fun (state, answered) =>
    if answered = count then (.error error, (state, answered + 1))
    else
      let (result, state) := (handler.answer request).run.run state
      (result, (state, answered + 1))

theorem Handler.failingAfter_run (handler : Handler σ ε α) (count answered : Nat) (error : ε)
    (state : σ) (request : Request α) :
    ((handler.failingAfter count error).answer request).run.run (state, answered) =
      if answered = count then (.error error, (state, answered + 1))
      else (((handler.answer request).run.run state).1,
        (((handler.answer request).run.run state).2, answered + 1)) :=
  rfl

theorem Handler.failsAfter_failingAfter (handler : Handler σ ε α) (error : ε) (state : σ)
    (answered left : Nat) :
    (handler.failingAfter (answered + left) error).FailsAfter error handler left (state, answered)
      state := by
  induction left generalizing state answered with
  | zero =>
    intro request
    rw [failingAfter_run, if_pos (Nat.add_zero _).symm]
  | succ left step =>
    intro request
    rw [failingAfter_run, if_neg (by omega)]
    have rest := step ((handler.answer request).run.run state).2 (answered + 1)
    rw [Nat.add_right_comm] at rest
    exact ⟨rfl, rest⟩

theorem Dialogue.first_failure {failing : Handler τ ε α} {handler : Handler σ ε α} {error : ε}
    {count : Nat} {state' : τ} {state : σ} (same_errors : failing.ofError = handler.ofError)
    (fails : failing.FailsAfter error handler count state' state) (dialogue : Dialogue α β) :
    (∀ call, (dialogue.calls handler state)[count]? = some call →
        dialogue.calls failing state' =
            (dialogue.calls handler state).take count ++ [⟨call.request, .error error⟩] ∧
          (dialogue.run failing state').outcome = .error error) ∧
      ((dialogue.calls handler state).length ≤ count →
        dialogue.calls failing state' = dialogue.calls handler state ∧
          (dialogue.run failing state').outcome = (dialogue.run handler state).outcome) := by
  induction dialogue generalizing count state' state with
  | done cursor outcome =>
    refine ⟨by simp [calls], fun _ => ⟨rfl, ?_⟩⟩
    simp only [run]
    rw [same_errors]
  | ask cursor request resume step =>
    simp only [calls, run]
    cases count with
    | zero =>
      -- This call is the one that fails, whether or not the other handler answers it.
      have failed := fails request
      generalize (failing.answer request).run.run state' = answered' at failed ⊢
      generalize (handler.answer request).run.run state = answered
      obtain ⟨outcome', after'⟩ := answered'
      obtain ⟨outcome, after⟩ := answered
      cases failed
      cases outcome with
      | ok answer =>
        refine ⟨fun call made => ?_, by simp⟩
        cases made
        exact ⟨rfl, rfl⟩
      | error error =>
        refine ⟨fun call made => ?_, by simp⟩
        cases made
        exact ⟨rfl, rfl⟩
    | succ count =>
      obtain ⟨same, rest⟩ := fails request
      generalize (failing.answer request).run.run state' = answered' at same rest ⊢
      generalize (handler.answer request).run.run state = answered at same rest ⊢
      obtain ⟨outcome', after'⟩ := answered'
      obtain ⟨outcome, after⟩ := answered
      cases same
      -- Both have the same answer, so both go on with the same rest, or end here.
      cases outcome' with
      | error error => exact ⟨by simp, fun _ => ⟨rfl, rfl⟩⟩
      | ok answer =>
        obtain ⟨made, fewer⟩ := step answer rest
        refine ⟨fun call found => ?_, fun few => ?_⟩
        · obtain ⟨calls_eq, failed⟩ := made call found
          exact ⟨congrArg _ calls_eq, failed⟩
        · obtain ⟨calls_eq, same⟩ := fewer (Nat.le_of_succ_le_succ few)
          exact ⟨congrArg _ calls_eq, same⟩

/-- **The first failure of a handler ends the parse.** -/
theorem parse_first_failure (handler : Handler σ ε α) (failing : Handler τ ε α) (error : ε)
    (count : Nat) (state : σ) (state' : τ) (same_errors : failing.ofError = handler.ofError)
    (fails : failing.FailsAfter error handler count state' state) (text : String)
    (options : Options) :
    (∀ call, (parseCalls handler text options state)[count]? = some call →
        parseCalls failing text options state' =
            (parseCalls handler text options state).take count ++ [⟨call.request, .error error⟩] ∧
          (parse failing text options state').1 = .error error) ∧
      ((parseCalls handler text options state).length ≤ count →
        parseCalls failing text options state' = parseCalls handler text options state ∧
          (parse failing text options state').1 = (parse handler text options state).1) := by
  rw [parseCalls_eq, parseCalls_eq, parse, parse]
  cases Cursor.ofText? text options with
  | error error => exact ⟨by simp, fun _ => ⟨rfl, by rw [same_errors]⟩⟩
  | ok cursor => exact Dialogue.first_failure same_errors fails _

/-- A handler that fails at its second call hides the token after it that fits nowhere. -/
theorem parse_failing_second :
    (parse ((Builder.tree id).handler.failingAfter 1 (.internal .emptyReference)) "a b" {}
      ((), 0)).1 = .error (.internal .emptyReference) :=
  let handler : Handler Unit Error Expression := (Builder.tree id).handler
  have made : 1 < (parseCalls handler "a b" {} ()).length := by decide +kernel
  ((parse_first_failure handler _ _ 1 () ((), 0) rfl
    (handler.failsAfter_failingAfter (.internal .emptyReference) () 0 1) "a b" {}).1 _
      (List.getElem?_eq_getElem made)).2

end Formula
