/-
**The hook calls of a builder.**

A log is kept beside the context of a builder: which hook was called with which values, and what
came of it (`Builder.logged`). The log has no part in what is built (`compile_logged`), and it only
ever grows (`Builder.logged_grows`).

* `hookCalls`: the hook calls that a compilation makes, its finish included.
* `Builder.answers_related`: what the hooks of two builders keep, all their answers keep.
-/

import Formula.Proofs.Compile

namespace Formula

variable {σ τ κ ε α β : Type}

/-! ### Actions -/

/-- Holds of the relations between actions that go through `do`. -/
structure Action.Congruence (related : ∀ {β : Type}, Action σ ε β → Action τ ε β → Prop) :
    Prop where
  value : ∀ {β : Type} (value : β), related (pure value) (pure value)
  failure : ∀ {β : Type} (error : ε), related (throw error : Action σ ε β) (throw error)
  bind : ∀ {β γ : Type} {first : Action σ ε β} {first' : Action τ ε β} {next : β → Action σ ε γ}
    {next' : β → Action τ ε γ}, related first first' →
      (∀ value, related (next value) (next' value)) → related (first >>= next) (first' >>= next')

/-- Holds of an action that does, on what is seen of a state, what another action does. -/
def Action.Views (view : τ → σ) (wide : Action τ ε β) (narrow : Action σ ε β) : Prop :=
  ∀ state, ((wide.run.run state).1, view (wide.run.run state).2) = narrow.run.run (view state)

theorem Action.views_congruence (view : τ → σ) :
    Congruence (ε := ε) fun wide narrow => Views view wide narrow where
  value _ _ := rfl
  failure _ _ := rfl
  bind {_ _ first first' _ _} seen rest := by
    intro state
    have ran := seen state
    rw [run_bind, run_bind, ← ran]
    generalize first.run.run state = result
    obtain ⟨outcome, after⟩ := result
    cases outcome with
    | ok value => exact rest value after
    | error error => rfl

/-- Holds of an action that leads from a state to related ones only. -/
def Action.Leads (leads : σ → σ → Prop) (action : Action σ ε β) : Prop :=
  ∀ state, leads state (action.run.run state).2

theorem Action.leads_congruence {leads : σ → σ → Prop} (refl : ∀ state, leads state state)
    (trans : ∀ first second third, leads first second → leads second third →
      leads first third) :
    Congruence (ε := ε) fun action (_ : Action σ ε _) => Leads leads action where
  value _ := refl
  failure _ := refl
  bind {_ _ first _ _ _} before rest := by
    intro state
    have led := before state
    rw [run_bind]
    generalize first.run.run state = result at led
    obtain ⟨outcome, after⟩ := result
    cases outcome with
    | ok value => exact trans _ _ _ led (rest value after)
    | error error => exact led

/-! ### Hooks -/

/-- A call of a hook of a builder, with the values that it is handed. -/
inductive HookCall (α : Type)
  | literal (value : Literal)
  | reference (target : Reference)
  | operator (symbol : String) (left right : α)
  | unary (symbol : String) (operand : α)
  | call (function : Reference) (arguments : List α)
  | finish (value : α)

/-- What a hook of a builder does. -/
def Builder.hook (builder : Builder κ ε α) : HookCall α → Action κ ε α
  | .literal value => builder.literal value
  | .reference target => builder.reference target
  | .operator symbol left right => builder.operator symbol left right
  | .unary symbol operand => builder.unary symbol operand
  | .call function arguments => builder.call function arguments
  | .finish value => builder.finish value

namespace Builder

section Related

variable {builder : Builder σ ε α} {builder' : Builder τ ε α}
  {related : ∀ {β : Type}, Action σ ε β → Action τ ε β → Prop}
  (congruence : Action.Congruence related) (same_errors : builder.ofError = builder'.ofError)
  (hooks : ∀ call, related (builder.hook call) (builder'.hook call))

include congruence

theorem fail_related (same_errors : builder.ofError = builder'.ofError) (error : Error) :
    related (builder.fail error : Action σ ε β) (builder'.fail error) := by
  rw [fail, fail, same_errors]
  exact congruence.failure _

theorem chain_related (hooks : ∀ call, related (builder.hook call) (builder'.hook call)) (first : α)
    (rest : List (String × α)) :
    related (builder.chain first rest) (builder'.chain first rest) := by
  induction rest generalizing first with
  | nil => exact congruence.value first
  | cons link rest step => exact congruence.bind (hooks (.operator link.1 first link.2)) step

include same_errors hooks

/-- What the hooks of two builders keep, all their answers keep. -/
theorem answers_related (request : Request α) :
    related (builder.handler.answer request) (builder'.handler.answer request) := by
  have failed {β : Type} (error : Error) :
      related (builder.fail error : Action σ ε β) (builder'.fail error) :=
    fail_related congruence same_errors error
  cases request with
  | number lexeme =>
    simp only [handler, number]
    cases Literal.ofLexeme? lexeme with
    | none => exact failed _
    | some value => exact hooks (.literal value)
  | text content => exact hooks (.literal (.text content))
  | reference segments =>
    simp only [handler, refer]
    by_cases nothing : segments.isEmpty = true
    · rw [if_pos nothing, if_pos nothing]
      exact failed _
    · rw [if_neg nothing, if_neg nothing]
      exact congruence.value _
  | atom atom =>
    cases atom with
    | literal value => exact congruence.value value
    | group value => exact congruence.value value
    | reference target arguments =>
      cases arguments with
      | none => exact hooks (.reference target)
      | some arguments => exact hooks (.call target arguments)
  | reduce rule reduction =>
    simp only [handler, reduce]
    cases rule.kind <;> cases reduction
    case binary.binary first rest => exact chain_related congruence hooks first rest
    case unary.unary symbol operand => exact hooks (.unary symbol operand)
    case binary.passthrough operand => exact congruence.value operand
    case unary.passthrough operand => exact congruence.value operand
    all_goals exact failed _

end Related

end Builder

/-! ### The log -/

/-- A context with the hook calls made so far, each with what came of it. -/
structure HookLog (κ ε α : Type) where
  context : κ
  calls : List (HookCall α × Except ε α)

/-- Holds of a log and one that goes on from it. -/
def HookLog.Grows (log after : HookLog κ ε α) : Prop :=
  log.calls <+: after.calls

theorem HookLog.grows_refl (log : HookLog κ ε α) : log.Grows log :=
  List.prefix_rfl

theorem HookLog.grows_trans (first second third : HookLog κ ε α) (before : first.Grows second)
    (after : second.Grows third) : first.Grows third :=
  before.trans after

namespace Builder

/-- What a hook does, with its call put down in the log. -/
def logging (builder : Builder κ ε α) (call : HookCall α) : Action (HookLog κ ε α) ε α :=
  ExceptT.mk fun log =>
    let (result, context) := (builder.hook call).run.run log.context
    (result, ⟨context, log.calls ++ [(call, result)]⟩)

/-- Keeps a log beside the context of a builder. -/
def logged (builder : Builder κ ε α) : Builder (HookLog κ ε α) ε α where
  ofError := builder.ofError
  literal value := builder.logging (.literal value)
  reference target := builder.logging (.reference target)
  operator symbol left right := builder.logging (.operator symbol left right)
  unary symbol operand := builder.logging (.unary symbol operand)
  call function arguments := builder.logging (.call function arguments)
  finish value := builder.logging (.finish value)

theorem hook_logged (builder : Builder κ ε α) (call : HookCall α) :
    builder.logged.hook call = builder.logging call := by
  cases call <;> rfl

/-- The log has no part in what a hook does. -/
theorem logging_views (builder : Builder κ ε α) (call : HookCall α) :
    (builder.logging call).Views HookLog.context (builder.hook call) :=
  fun _ => rfl

/-- The log of a hook call begins with the log before it. -/
theorem logging_grows (builder : Builder κ ε α) (call : HookCall α) :
    (builder.logging call).Leads HookLog.Grows :=
  fun _ => List.prefix_append _ _

theorem logged_grows (builder : Builder κ ε α) (request : Request α) :
    (builder.logged.handler.answer request).Leads HookLog.Grows := by
  refine answers_related (Action.leads_congruence HookLog.grows_refl HookLog.grows_trans)
    (rfl : builder.logged.ofError = builder.logged.ofError) (fun call => ?_) request
  rw [hook_logged]
  exact builder.logging_grows call

theorem logged_views (builder : Builder κ ε α) (request : Request α) :
    (builder.logged.handler.answer request).Views HookLog.context
      (builder.handler.answer request) := by
  refine answers_related (Action.views_congruence HookLog.context)
    (rfl : builder.logged.ofError = builder.ofError) (fun call => ?_) request
  rw [hook_logged]
  exact builder.logging_views call

end Builder

/-- The hook calls that a compilation makes, in order, each with what came of it. -/
def hookCalls (builder : Builder κ ε α) (text : String) (options : Options) (context : κ) :
    List (HookCall α × Except ε α) :=
  (compile builder.logged text options ⟨context, []⟩).context.calls

/-- A compilation as one action: a parse with the builder, and the finish of its value. -/
theorem compile_run (builder : Builder κ ε α) (text : String) (options : Options) (context : κ) :
    ((compile builder text options context).outcome,
        (compile builder text options context).context) =
      (ExceptT.mk (parse builder.handler text options) >>= builder.finish :
        Action κ ε α).run.run context := by
  rw [compile_eq, Action.run_bind]
  rfl

/-- What a builder carries beside its context has no part in a compilation. -/
theorem compile_view {wide : Builder τ ε α} {builder : Builder κ ε α} (view : τ → κ)
    (same_errors : wide.ofError = builder.ofError)
    (hooks : ∀ call, (wide.hook call).Views view (builder.hook call))
    (text : String) (options : Options) (context : τ) :
    ((compile wide text options context).outcome,
        view (compile wide text options context).context) =
      ((compile builder text options (view context)).outcome,
        (compile builder text options (view context)).context) := by
  have congruence : Action.Congruence (ε := ε) fun wide narrow => Action.Views view wide narrow :=
    Action.views_congruence view
  have parsed : Action.Views view (ExceptT.mk (parse wide.handler text options))
      (ExceptT.mk (parse builder.handler text options)) :=
    parse_view view same_errors (Builder.answers_related congruence same_errors hooks) text options
  have finished (value : α) : (wide.finish value).Views view (builder.finish value) :=
    hooks (.finish value)
  have compiled := congruence.bind parsed finished context
  rw [← compile_run, ← compile_run] at compiled
  exact compiled

/-- Keeping a log changes neither the outcome nor the context. -/
theorem compile_logged (builder : Builder κ ε α) (text : String) (options : Options)
    (log : HookLog κ ε α) :
    ((compile builder.logged text options log).outcome,
        (compile builder.logged text options log).context.context) =
      ((compile builder text options log.context).outcome,
        (compile builder text options log.context).context) := by
  refine compile_view HookLog.context rfl (fun call => ?_) text options log
  rw [builder.hook_logged]
  exact builder.logging_views call

end Formula
