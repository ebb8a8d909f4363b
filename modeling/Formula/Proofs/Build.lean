/-
**What a derivation is built into.**

A builder gives a derivation its value by recursion on the derivation (`Derivation.build`): operands
first, from left to right, then what holds them, and of a chain the operators after all operands.
The requests of the derivation, answered with the builder, come to the same
(`Derivation.perform_eq`).

* `Derivation.perform_eq`: answering the requests of a derivation builds it.
* `Derivation.build_tree`: the builder of trees builds the tree of the derivation.
* `Builder.Total.answers`: a builder that never fails answers whatever the grammar produces.
-/

import Formula.Proofs.Parser.Texts

namespace Formula

variable {σ κ ε α β : Type}

namespace Derivation

/-- The value that a builder gives a derivation. -/
@[simp]
def build (builder : Builder κ ε α) {phrase : Phrase} :
    Derivation phrase → Action κ ε (phrase.Value α)
  | number lexeme => builder.literal (.ofLexeme lexeme)
  | text content => builder.literal (.text content)
  | reference first names call => do
    match ← call.build builder with
    | none => builder.reference ⟨first :: names.tree⟩
    | some arguments => builder.call ⟨first :: names.tree⟩ arguments
  | group inside => inside.build builder
  | chain _ first links => do
    let first ← first.build builder
    let rest ← links.build builder
    rest.foldlM (fun left (symbol, right) => builder.operator symbol left right) first
  | operated _ operator _ operand => do
    let operand ← operand.build builder
    builder.unary operator.symbol operand
  | bare _ operand => operand.build builder
  | lastLink => pure []
  | link operator _ operand links => do
    let right ← operand.build builder
    let rest ← links.build builder
    return (operator.symbol, right) :: rest
  | lastName => pure []
  | name letters names => pure (letters :: names.tree)
  | uncalled => pure none
  | called arguments => do
    let values ← arguments.build builder
    return some values
  | noArguments => pure []
  | someArguments first more => do
    let first ← first.build builder
    let rest ← more.build builder
    return first :: rest
  | lastArgument => pure []
  | argument value more => do
    let value ← value.build builder
    let rest ← more.build builder
    return value :: rest

theorem perform_names {m : Type → Type} [Monad m] [LawfulMonad m]
    (answer : (request : Request α) → m request.Answer) :
    (names : Derivation .names) → names.perform answer = pure names.tree
  | lastName => rfl
  | name letters names => by
    rw [perform, perform_names answer names, pure_bind]
    rfl

/-- Answering the requests of a derivation builds it, if its numbers can be read. -/
theorem perform_eq (builder : Builder κ ε α) {phrase : Phrase} (derivation : Derivation phrase)
    (readable : ∀ token ∈ derivation.tokens, token.Readable) :
    derivation.perform builder.handler.answer = derivation.build builder := by
  induction derivation with
  | number lexeme =>
    obtain ⟨literal, read⟩ := readable _ List.mem_cons_self
    have value : builder.handler.answer (.number lexeme) = builder.literal literal := by
      simp only [Builder.handler, Builder.number, read]
    rw [perform, value, build, Literal.ofLexeme, read]
    exact bind_pure _
  | text content => exact bind_pure _
  | reference first names call names_step call_step =>
    rw [tokens, List.forall_mem_cons, List.forall_mem_append] at readable
    rw [perform, perform_names, pure_bind, build, ← call_step readable.2.2]
    show (call.perform _ >>= fun arguments => builder.atom (.reference _ arguments)) = _
    congr 1
    funext arguments
    cases arguments <;> rfl
  | group inside step =>
    rw [tokens, List.forall_mem_cons, List.forall_mem_append] at readable
    rw [perform, step readable.2.1, build]
    exact bind_pure _
  | chain binary first links first_step links_step =>
    rw [tokens, List.forall_mem_append] at readable
    rw [perform, first_step readable.1, links_step readable.2, build]
    simp only [Builder.handler, Builder.reduce, binary]
    rfl
  | operated unary operator member operand step =>
    rw [tokens, List.forall_mem_cons] at readable
    rw [perform, step readable.2, build]
    simp only [Builder.handler, Builder.reduce, unary]
  | bare unary operand step =>
    rw [perform, step readable, build]
    exact bind_pure _
  | lastLink => rfl
  | link operator member operand links operand_step links_step =>
    rw [tokens, List.forall_mem_cons, List.forall_mem_append] at readable
    rw [perform, operand_step readable.2.1, links_step readable.2.2, build]
  | lastName => rfl
  | name letters names => exact perform_names _ (name letters names)
  | uncalled => rfl
  | called arguments step =>
    rw [tokens, List.forall_mem_cons] at readable
    rw [perform, step readable.2, build]
  | noArguments => rfl
  | someArguments first more first_step more_step =>
    rw [tokens, List.forall_mem_append, List.forall_mem_append] at readable
    rw [perform, first_step readable.1, more_step readable.2.1, build]
  | lastArgument => rfl
  | argument value more value_step more_step =>
    rw [tokens, List.forall_mem_cons, List.forall_mem_append] at readable
    rw [perform, value_step readable.2.1, more_step readable.2.2, build]

/-- The builder of trees builds the tree of the derivation. -/
theorem build_tree (ofError : Error → ε) {phrase : Phrase} (derivation : Derivation phrase) :
    derivation.build (Builder.tree ofError : Builder κ ε Expression) = pure derivation.tree := by
  induction derivation with
  | reference first names call _ call_step =>
    rw [build, call_step, pure_bind, tree]
    cases call.tree <;> rfl
  | chain binary first links first_step links_step =>
    rw [build, first_step, pure_bind, links_step, pure_bind]
    exact List.foldlM_pure
  | link operator member operand links operand_step links_step =>
    rw [build, operand_step, pure_bind, links_step, pure_bind]
    rfl
  | someArguments first more first_step more_step =>
    rw [build, first_step, pure_bind, more_step, pure_bind]
    rfl
  | argument value more value_step more_step =>
    rw [build, value_step, pure_bind, more_step, pure_bind]
    rfl
  | operated unary operator member operand step =>
    rw [build, step, pure_bind]
    rfl
  | called arguments step =>
    rw [build, step, pure_bind]
    rfl
  | group inside step => exact step
  | bare unary operand step => exact step
  | _ => rfl

end Derivation

/-! ### Builders that never fail -/

/-- Holds of the actions that give a value in every state. -/
def Action.Succeeds (action : Action σ ε β) : Prop :=
  ∀ state, ∃ value after, action.run.run state = (.ok value, after)

theorem Action.succeeds_pure (value : β) : Succeeds (pure value : Action σ ε β) :=
  fun state => ⟨value, state, rfl⟩

theorem Action.Succeeds.bind {action : Action σ ε α} {next : α → Action σ ε β}
    (first : action.Succeeds) (rest : ∀ value, (next value).Succeeds) :
    (action >>= next).Succeeds := by
  intro state
  obtain ⟨value, after, ran⟩ := first state
  rw [run_bind_of_ok ran]
  exact rest value after

/-- Holds of a handler that answers whatever the grammar produces from tokens that can be read. -/
def Handler.Answers (handler : Handler σ ε α) : Prop :=
  ∀ request : Request α, request.From Token.Readable → (handler.answer request).Succeeds

/-- Holds of the builders that give a value to whatever they are handed. -/
structure Builder.Total (builder : Builder κ ε α) : Prop where
  literal : ∀ value, (builder.literal value).Succeeds
  reference : ∀ target, (builder.reference target).Succeeds
  operator : ∀ symbol left right, (builder.operator symbol left right).Succeeds
  unary : ∀ symbol operand, (builder.unary symbol operand).Succeeds
  call : ∀ function arguments, (builder.call function arguments).Succeeds

namespace Builder

theorem total_tree (ofError : Error → ε) : (tree ofError : Builder κ ε Expression).Total where
  literal _ := Action.succeeds_pure _
  reference _ := Action.succeeds_pure _
  operator _ _ _ := Action.succeeds_pure _
  unary _ _ := Action.succeeds_pure _
  call _ _ := Action.succeeds_pure _

theorem Total.chain {builder : Builder κ ε α} (total : builder.Total) (first : α)
    (rest : List (String × α)) : (builder.chain first rest).Succeeds := by
  induction rest generalizing first with
  | nil => exact Action.succeeds_pure first
  | cons link rest step => exact (total.operator link.1 first link.2).bind step

/-- A builder that never fails answers whatever the grammar produces. -/
theorem Total.answers {builder : Builder κ ε α} (total : builder.Total) {request : Request α}
    (produced : request.From Token.Readable) : (builder.handler.answer request).Succeeds := by
  cases request with
  | number lexeme =>
    obtain ⟨literal, read⟩ := produced
    simp only [handler, number, read]
    exact total.literal literal
  | text content => exact total.literal _
  | reference segments =>
    have some_segment : segments.isEmpty = false := List.isEmpty_eq_false_iff.mpr produced.1
    simp only [handler, refer, some_segment]
    exact Action.succeeds_pure _
  | atom atom =>
    cases atom with
    | literal value => exact Action.succeeds_pure value
    | group value => exact Action.succeeds_pure value
    | reference target arguments =>
      cases arguments with
      | none => exact total.reference target
      | some arguments => exact total.call target arguments
  | reduce rule reduction =>
    cases reduction with
    | passthrough operand =>
      simp only [handler, reduce]
      exact Action.succeeds_pure operand
    | binary first rest =>
      simp only [handler, reduce, produced.1]
      exact total.chain first rest
    | unary symbol operand =>
      simp only [handler, reduce, produced.1]
      exact total.unary symbol operand

end Builder

end Formula
