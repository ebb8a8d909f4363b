/-
**Parses as dialogues.**

A dialogue is a parse seen from outside: it ends with a result or a refusal, or it asks a request
and goes on with the answer. Each step shows the cursor, the place that the parse has reached, so
that a parse which is stopped by its handler leaves a cursor to go on from. A `Parser` takes a
cursor to a dialogue; parsers are put together with `do`.

`Dialogue.run` holds the dialogue with a handler. Since a dialogue does not depend on the handler,
what holds of dialogues holds for every handler.

* `Dialogue.run_andThen`: a dialogue that goes on after another is held by holding the one and then
  the other.
* Parsers are a lawful monad.
-/

import Formula.Request
import Formula.Tape

namespace Formula

/-- The place that a parse has reached: the token to look at with its offset, the readings after it,
and the depth of nesting. -/
structure Cursor where
  token : Token
  start : Nat
  tape : Tape
  depth : Nat

/-- A parse that is asking its way to a result. -/
inductive Dialogue (α β : Type)
  | done (cursor : Cursor) (outcome : Except ParseError β)
  | ask (cursor : Cursor) (request : Request α) (resume : request.Answer → Dialogue α β)

/-- How a parse went with a handler: its result, the cursor it left, and the handler's state. -/
structure Run (σ ε β : Type) where
  outcome : Except ε β
  cursor : Cursor
  state : σ

namespace Dialogue

variable {σ ε α β γ : Type}

/-- Goes on with the result of a dialogue, at the cursor it leaves. -/
def andThen : Dialogue α β → (β → Cursor → Dialogue α γ) → Dialogue α γ
  | done cursor (.ok result), next => next result cursor
  | done cursor (.error error), _ => done cursor (.error error)
  | ask cursor request resume, next =>
    ask cursor request fun answer => (resume answer).andThen next

/-- Holds a dialogue with a handler. The first request that the handler fails on ends it. -/
def run (handler : Handler σ ε α) : Dialogue α β → σ → Run σ ε β
  | done cursor outcome, state =>
    ⟨outcome.mapError fun error => handler.ofError (.refused error), cursor, state⟩
  | ask cursor request resume, state =>
    match (handler.answer request).run.run state with
    | (.ok answer, state) => run handler (resume answer) state
    | (.error error, state) => ⟨.error error, cursor, state⟩

theorem andThen_assoc {δ : Type} (dialogue : Dialogue α β) (next : β → Cursor → Dialogue α γ)
    (last : γ → Cursor → Dialogue α δ) :
    (dialogue.andThen next).andThen last =
      dialogue.andThen fun result cursor => (next result cursor).andThen last := by
  induction dialogue with
  | done cursor outcome => cases outcome <;> rfl
  | ask cursor request resume step => simp only [andThen, step]

theorem andThen_done (dialogue : Dialogue α β) :
    (dialogue.andThen fun result cursor => done cursor (.ok result)) = dialogue := by
  induction dialogue with
  | done cursor outcome => cases outcome <;> rfl
  | ask cursor request resume step => simp only [andThen, step]

/-- A dialogue that goes on after another is held by holding the one and then the other. -/
theorem run_andThen (handler : Handler σ ε α) (dialogue : Dialogue α β)
    (next : β → Cursor → Dialogue α γ) (state : σ) :
    (dialogue.andThen next).run handler state =
      match dialogue.run handler state with
      | ⟨.ok result, cursor, state⟩ => (next result cursor).run handler state
      | ⟨.error error, cursor, state⟩ => ⟨.error error, cursor, state⟩ := by
  induction dialogue generalizing state with
  | done cursor outcome => cases outcome <;> rfl
  | ask cursor request resume step =>
    simp only [andThen, run]
    generalize (handler.answer request).run.run state = answered
    obtain ⟨outcome, after⟩ := answered
    cases outcome with
    | ok answer => exact step answer after
    | error error => rfl

end Dialogue

/-- Reads part of an expression, from a cursor on. -/
def Parser (α β : Type) : Type :=
  Cursor → Dialogue α β

namespace Parser

variable {α β : Type}

instance : Monad (Parser α) where
  pure result := fun cursor => .done cursor (.ok result)
  bind parser next := fun cursor => (parser cursor).andThen next

instance : LawfulMonad (Parser α) :=
  LawfulMonad.mk' (m := Parser α)
    (fun _ => funext fun _ => Dialogue.andThen_done _)
    (fun _ _ => rfl)
    (fun _ _ _ => funext fun _ => Dialogue.andThen_assoc _ _ _)

/-- The cursor. -/
def cursor : Parser α Cursor :=
  fun cursor => .done cursor (.ok cursor)

/-- Changes the cursor. -/
def move (change : Cursor → Cursor) : Parser α Unit :=
  fun cursor => .done (change cursor) (.ok ())

/-- Refuses the text. -/
def refuse (error : ParseError) : Parser α β :=
  fun cursor => .done cursor (.error error)

/-- Asks the handler. -/
def ask (request : Request α) : Parser α request.Answer :=
  fun cursor => .ask cursor request fun answer => .done cursor (.ok answer)

end Parser

end Formula
