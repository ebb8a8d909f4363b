/-
**Holding a dialogue, and what every way of holding it meets.**

* `Dialogue.hold`: a dialogue held with a handler, as one action of the handler. It goes through
  `do` (`Parser.hold_bind`), and it is the run of the dialogue as far as the result and the state go
  (`Dialogue.run_hold`).
* `Dialogue.run_view`: what a handler carries beside its state has no part in a run.
* `Dialogue.Meets`: what holds of every request, every result and every refusal that the answers can
  lead to. It goes through `do` as well (`Parser.meets_bind`).
* `Dialogue.Meets.run`: a run that no failure of the handler ends is at a result or a refusal.
-/

import Formula.Proofs.Cursor

namespace Formula

variable {σ ε α β γ : Type}

/-- One action after another, from a state on. -/
theorem Action.run_bind (action : Action σ ε α) (next : α → Action σ ε β) (state : σ) :
    (action >>= next).run.run state =
      match action.run.run state with
      | (.ok value, state) => (next value).run.run state
      | (.error error, state) => (.error error, state) := by
  rw [ExceptT.run_bind, StateT.run_bind]
  generalize action.run.run state = ran
  obtain ⟨outcome, after⟩ := ran
  cases outcome <;> rfl

/-- What goes on after a value runs on from the state that is left. -/
theorem Action.run_bind_of_ok {action : Action σ ε α} {state after : σ} {value : α}
    (ran : action.run.run state = (.ok value, after)) (next : α → Action σ ε β) :
    (action >>= next).run.run state = (next value).run.run after := by
  rw [run_bind, ran]

namespace Dialogue

/-! ### Holding -/

/-- Holds a dialogue with a handler: gives the result, and the cursor at which it was reached. -/
def hold (handler : Handler σ ε α) : Dialogue α β → Action σ ε (β × Cursor)
  | done cursor (.ok result) => pure (result, cursor)
  | done _ (.error error) => throw (handler.ofError (.refused error))
  | ask _ request resume => do
    let answer ← handler.answer request
    (resume answer).hold handler

theorem hold_andThen (handler : Handler σ ε α) (dialogue : Dialogue α β)
    (next : β → Cursor → Dialogue α γ) :
    (dialogue.andThen next).hold handler =
      dialogue.hold handler >>= fun (result, cursor) => (next result cursor).hold handler := by
  induction dialogue with
  | done cursor outcome => cases outcome <;> rfl
  | ask cursor request resume step => simp only [andThen, hold, bind_assoc, step]

/-- The run of a dialogue, the last cursor apart, is the dialogue held. -/
theorem run_hold (handler : Handler σ ε α) (dialogue : Dialogue α β) (state : σ) :
    ((dialogue.run handler state).outcome, (dialogue.run handler state).state) =
      (do return (← dialogue.hold handler).1 : Action σ ε β).run.run state := by
  induction dialogue generalizing state with
  | done cursor outcome => cases outcome <;> rfl
  | ask cursor request resume step =>
    rw [hold, bind_assoc, Action.run_bind, run]
    generalize (handler.answer request).run.run state = answered
    obtain ⟨outcome, after⟩ := answered
    cases outcome with
    | ok answer => exact step answer after
    | error error => rfl

/-- A handler that carries more in its state, and answers as another one does with what it carries
of that one's state, holds every dialogue alike. -/
theorem run_view {τ : Type} {wide : Handler τ ε α} {handler : Handler σ ε α} (view : τ → σ)
    (same_errors : wide.ofError = handler.ofError)
    (answers : ∀ request state, (((wide.answer request).run.run state).1,
      view ((wide.answer request).run.run state).2) = (handler.answer request).run.run (view state))
    (dialogue : Dialogue α β) (state : τ) :
    ((dialogue.run wide state).outcome, view (dialogue.run wide state).state) =
      ((dialogue.run handler (view state)).outcome, (dialogue.run handler (view state)).state) := by
  induction dialogue generalizing state with
  | done cursor outcome =>
    simp only [run]
    rw [same_errors]
  | ask cursor request resume step =>
    have answered := answers request state
    simp only [run]
    rw [← answered]
    generalize (wide.answer request).run.run state = ran
    obtain ⟨outcome, after⟩ := ran
    cases outcome with
    | ok answer => exact step answer after
    | error error => rfl

/-! ### What a dialogue meets -/

/-- Whatever is answered, every request is one of `asks`, every result one of `results`, and every
refusal one of `refusals`. -/
def Meets (asks : Cursor → Request α → Prop) (results : β → Cursor → Prop)
    (refusals : ParseError → Cursor → Prop) : Dialogue α β → Prop
  | done cursor (.ok result) => results result cursor
  | done cursor (.error error) => refusals error cursor
  | ask cursor request resume =>
    asks cursor request ∧ ∀ answer, (resume answer).Meets asks results refusals

variable {asks : Cursor → Request α → Prop} {results : β → Cursor → Prop}
  {refusals : ParseError → Cursor → Prop}

theorem Meets.imp {asks' : Cursor → Request α → Prop} {results' : β → Cursor → Prop}
    {refusals' : ParseError → Cursor → Prop} {dialogue : Dialogue α β}
    (meets : dialogue.Meets asks results refusals)
    (ask : ∀ cursor request, asks cursor request → asks' cursor request)
    (result : ∀ value cursor, results value cursor → results' value cursor)
    (refusal : ∀ error cursor, refusals error cursor → refusals' error cursor) :
    dialogue.Meets asks' results' refusals' := by
  induction dialogue with
  | done cursor outcome =>
    cases outcome with
    | ok value => exact result _ _ meets
    | error error => exact refusal _ _ meets
  | ask cursor request resume step =>
    exact ⟨ask _ _ meets.1, fun answer => step answer (meets.2 answer)⟩

theorem Meets.mono {results' : β → Cursor → Prop} {refusals' : ParseError → Cursor → Prop}
    {dialogue : Dialogue α β} (meets : dialogue.Meets asks results refusals)
    (result : ∀ value cursor, results value cursor → results' value cursor)
    (refusal : ∀ error cursor, refusals error cursor → refusals' error cursor) :
    dialogue.Meets asks results' refusals' :=
  meets.imp (fun _ _ asked => asked) result refusal

/-- What is met in two ways is met in both at once. -/
theorem Meets.and {asks' : Cursor → Request α → Prop} {results' : β → Cursor → Prop}
    {refusals' : ParseError → Cursor → Prop} {dialogue : Dialogue α β}
    (meets : dialogue.Meets asks results refusals)
    (meets' : dialogue.Meets asks' results' refusals') :
    dialogue.Meets (fun cursor request => asks cursor request ∧ asks' cursor request)
      (fun value cursor => results value cursor ∧ results' value cursor)
      (fun error cursor => refusals error cursor ∧ refusals' error cursor) := by
  induction dialogue with
  | done cursor outcome => cases outcome <;> exact ⟨meets, meets'⟩
  | ask cursor request resume step =>
    exact ⟨⟨meets.1, meets'.1⟩, fun answer => step answer (meets.2 answer) (meets'.2 answer)⟩

theorem meets_andThen {dialogue : Dialogue α γ} {next : γ → Cursor → Dialogue α β} :
    (dialogue.andThen next).Meets asks results refusals ↔
      dialogue.Meets asks (fun value cursor => (next value cursor).Meets asks results refusals)
        refusals := by
  induction dialogue with
  | done cursor outcome => cases outcome <;> rfl
  | ask cursor request resume step => simp only [andThen, Meets, step]

/-- A run is at a result or a refusal that the dialogue meets, unless the handler fails on a request
that it meets. -/
theorem Meets.run {dialogue : Dialogue α β} (meets : dialogue.Meets asks results refusals)
    (handler : Handler σ ε α) (state : σ) :
    (∃ value, (dialogue.run handler state).outcome = .ok value ∧
        results value (dialogue.run handler state).cursor) ∨
      (∃ error, (dialogue.run handler state).outcome = .error (handler.ofError (.refused error)) ∧
        refusals error (dialogue.run handler state).cursor) ∨
      ∃ request error state', asks (dialogue.run handler state).cursor request ∧
        ((handler.answer request).run.run state').1 = .error error ∧
        (dialogue.run handler state).outcome = .error error := by
  induction dialogue generalizing state with
  | done cursor outcome =>
    cases outcome with
    | ok value => exact .inl ⟨value, rfl, meets⟩
    | error error => exact .inr (.inl ⟨error, rfl, meets⟩)
  | ask cursor request resume step =>
    rw [Dialogue.run]
    cases answered : (handler.answer request).run.run state with
    | mk outcome after =>
      cases outcome with
      | ok answer => exact step answer (meets.2 answer) after
      | error error => exact .inr (.inr ⟨request, error, state, meets.1, by rw [answered], rfl⟩)

end Dialogue

/-! ### Parsers -/

namespace Parser

variable (handler : Handler σ ε α) {asks : Cursor → Request α → Prop}
  {results : β → Cursor → Prop} {refusals : ParseError → Cursor → Prop} (cursor : Cursor)

@[simp]
theorem hold_bind (parser : Parser α β) (next : β → Parser α γ) :
    ((parser >>= next) cursor).hold handler =
      (parser cursor).hold handler >>= fun (result, cursor) => (next result cursor).hold handler :=
  Dialogue.hold_andThen handler _ _

@[simp]
theorem hold_pure (result : β) :
    ((pure result : Parser α β) cursor).hold handler = pure (result, cursor) :=
  rfl

@[simp]
theorem hold_cursor :
    ((Parser.cursor : Parser α Cursor) cursor).hold handler = pure (cursor, cursor) :=
  rfl

@[simp]
theorem hold_move (change : Cursor → Cursor) :
    ((move change : Parser α Unit) cursor).hold handler = pure ((), change cursor) :=
  rfl

@[simp]
theorem meets_bind {parser : Parser α γ} {next : γ → Parser α β} :
    ((parser >>= next) cursor).Meets asks results refusals ↔
      (parser cursor).Meets asks
        (fun value cursor => (next value cursor).Meets asks results refusals) refusals :=
  Dialogue.meets_andThen

@[simp]
theorem meets_pure (result : β) :
    ((pure result : Parser α β) cursor).Meets asks results refusals ↔ results result cursor :=
  Iff.rfl

@[simp]
theorem meets_cursor {results : Cursor → Cursor → Prop} :
    (Parser.cursor cursor).Meets asks results refusals ↔ results cursor cursor :=
  Iff.rfl

@[simp]
theorem meets_move {results : Unit → Cursor → Prop} (change : Cursor → Cursor) :
    (move change cursor).Meets asks results refusals ↔ results () (change cursor) :=
  Iff.rfl

@[simp]
theorem meets_refuse (error : ParseError) :
    ((refuse error : Parser α β) cursor).Meets asks results refusals ↔ refusals error cursor :=
  Iff.rfl

@[simp]
theorem meets_ask {request : Request α} {results : request.Answer → Cursor → Prop} :
    (ask request cursor).Meets asks results refusals ↔
      asks cursor request ∧ ∀ answer, results answer cursor :=
  Iff.rfl

end Parser

end Formula
