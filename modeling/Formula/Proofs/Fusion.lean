/-
**A builder that only computes folds the tree.**

A builder whose hooks never fail, and make of what they are handed a value that does not depend on
the context (`Builder.Computes`), need not be held with the parse: its value is that of the tree,
folded with the hooks and finished. So a tree is built once and given any number of meanings, and
the canonical text can be built right away or be read off the tree.

* `Expression.IsFold.fold_eq`: folding is the only way to give trees values part by part.
* `Builder.Computes.answers`: answering with the values of trees is folding the answers.
* `compile_folded`: the outcome of every such builder, from the tree of the text.
-/

import Formula.Proofs.Expressions
import Formula.Proofs.Parser.Values

namespace Formula

variable {κ ε α : Type}

/-! ### Folding -/

namespace Expression

mutual

/-- The value of an expression, from the values that the hooks give its parts. -/
def fold (value : HookCall α → α) : Expression → α
  | literal content => value (.literal content)
  | reference target => value (.reference target)
  | call function arguments => value (.call function (foldAll value arguments))
  | unary operator operand => value (.unary operator (operand.fold value))
  | binary operator left right => value (.operator operator (left.fold value) (right.fold value))

/-- The values of expressions. -/
def foldAll (value : HookCall α → α) : List Expression → List α
  | [] => []
  | first :: rest => first.fold value :: foldAll value rest

end

theorem foldAll_eq (value : HookCall α → α) (expressions : List Expression) :
    foldAll value expressions = expressions.map (fold value) := by
  induction expressions with
  | nil => rfl
  | cons first rest step => rw [foldAll, step, List.map_cons]

/-- Holds of a function that gives trees values part by part, with the values of the hooks. -/
structure IsFold (value : HookCall α → α) (image : Expression → α) : Prop where
  literal : ∀ content, image (.literal content) = value (.literal content)
  reference : ∀ target, image (.reference target) = value (.reference target)
  call : ∀ function arguments,
    image (.call function arguments) = value (.call function (arguments.map image))
  unary : ∀ operator operand,
    image (.unary operator operand) = value (.unary operator (image operand))
  binary : ∀ operator left right,
    image (.binary operator left right) = value (.operator operator (image left) (image right))

mutual

/-- Folding is the only way to give trees values part by part. -/
theorem IsFold.fold_eq {value : HookCall α → α} {image : Expression → α}
    (folds : IsFold value image) : (tree : Expression) → tree.fold value = image tree
  | .literal content => (folds.literal content).symm
  | .reference target => (folds.reference target).symm
  | .call function arguments => by rw [fold, folds.foldAll_eq arguments, folds.call]
  | .unary operator operand => by rw [fold, folds.fold_eq operand, folds.unary]
  | .binary operator left right => by
    rw [fold, folds.fold_eq left, folds.fold_eq right, folds.binary]

theorem IsFold.foldAll_eq {value : HookCall α → α} {image : Expression → α}
    (folds : IsFold value image) : (trees : List Expression) → foldAll value trees = trees.map image
  | [] => rfl
  | first :: rest => by rw [foldAll, folds.fold_eq first, folds.foldAll_eq rest, List.map_cons]

end

theorem displayAll_eq (expressions : List Expression) :
    displayAll expressions = expressions.map display := by
  induction expressions with
  | nil => rfl
  | cons first rest step => rw [displayAll, step, List.map_cons]

end Expression

namespace HookCall

/-- The tree that the builder of trees makes of what it is handed. -/
def tree : HookCall Expression → Expression
  | literal value => .literal value
  | reference target => .reference target
  | operator symbol left right => .binary symbol left right
  | unary symbol operand => .unary symbol operand
  | call function arguments => .call function arguments
  | finish value => value

/-- The text that the builder of canonical text makes of what it is handed. -/
def text : HookCall String → String
  | literal value => value.display
  | reference target => target.name
  | operator symbol left right => Expression.binaryText symbol left right
  | unary symbol operand => Expression.unaryText symbol operand
  | call function arguments => Expression.callText function arguments
  | finish value => value

end HookCall

namespace Expression

/-- A tree is folded into itself. -/
theorem id_isFold : IsFold HookCall.tree id where
  literal _ := rfl
  reference _ := rfl
  call function arguments := congrArg (call function) (List.map_id arguments).symm
  unary _ _ := rfl
  binary _ _ _ := rfl

/-- A tree is folded into its canonical text. -/
theorem display_isFold : IsFold HookCall.text display where
  literal _ := rfl
  reference _ := rfl
  call function arguments := congrArg (callText function) (displayAll_eq arguments)
  unary _ _ := rfl
  binary _ _ _ := rfl

end Expression

/-! ### Builders that only compute -/

/-- Holds of a builder whose hooks never fail, and whose values do not depend on the context. -/
def Builder.Computes (builder : Builder κ ε α) (value : HookCall α → α) : Prop :=
  ∀ call context, ((builder.hook call).run.run context).1 = .ok (value call)

namespace Builder

theorem tree_computes (ofError : Error → ε) :
    (tree ofError : Builder κ ε Expression).Computes HookCall.tree := by
  intro call context
  cases call <;> rfl

theorem canonicalText_computes (ofError : Error → ε) :
    (canonicalText ofError : Builder κ ε String).Computes HookCall.text := by
  intro call context
  cases call <;> rfl

section Computes

variable {builder : Builder κ ε α} {value : HookCall α → α} (computes : builder.Computes value)

include computes

/-- A chain of the values of trees has the value of the tree of the chain. -/
theorem Computes.chain (first : Expression) (rest : List (String × Expression)) (context : κ)
    (context' : Unit) :
    ((builder.chain (first.fold value) (rest.map (Prod.map id (Expression.fold value)))).run.run
        context).1 =
      ((((tree id).chain first rest).run.run context').1.map (Expression.fold value)).mapError
        builder.ofError := by
  induction rest generalizing first context with
  | nil => rfl
  | cons link rest step =>
    obtain ⟨symbol, right⟩ := link
    have applied : ((builder.operator symbol (first.fold value) (right.fold value)).run.run
        context).1 = .ok ((Expression.binary symbol first right).fold value) :=
      computes (.operator symbol (first.fold value) (right.fold value)) context
    rw [List.map_cons, Prod.map_apply, id, chain_cons, Action.run_bind]
    -- What the operator leaves of the context may be anything; its value is that of the tree.
    generalize (builder.operator symbol _ _).run.run context = result at applied ⊢
    obtain ⟨outcome, after⟩ := result
    obtain rfl := applied
    exact step (.binary symbol first right) after

/-- Answering a request with the values of trees is answering it with trees, and folding them. -/
theorem Computes.answers (request : Request Expression) (context' : Unit) (context : κ) :
    ((builder.handler.answer (request.map (Expression.fold value))).run.run context).1 =
      ((((tree id).handler.answer request).run.run context').1.map
        (request.mapAnswer (Expression.fold value))).mapError builder.ofError := by
  cases request with
  | number lexeme =>
    simp only [Request.map, handler, number]
    cases Literal.ofLexeme? lexeme with
    | none => rfl
    | some content => exact computes (.literal content) context
  | text content => exact computes (.literal (.text content)) context
  | reference segments =>
    simp only [Request.map, handler, refer]
    by_cases nothing : segments.isEmpty = true
    · rw [if_pos nothing, if_pos nothing]
      rfl
    · rw [if_neg nothing, if_neg nothing]
      rfl
  | atom atom =>
    cases atom with
    | literal content => rfl
    | group content => rfl
    | reference target arguments =>
      cases arguments with
      | none => exact computes (.reference target) context
      | some arguments =>
        refine (computes (.call target (arguments.map (Expression.fold value))) context).trans ?_
        rw [← Expression.foldAll_eq]
        rfl
  | reduce rule reduction =>
    simp only [Request.map, handler, reduce]
    cases rule.kind <;> cases reduction
    case binary.binary first rest => exact computes.chain first rest context context'
    case unary.unary symbol operand => exact computes (.unary symbol (operand.fold value)) context
    all_goals rfl

end Computes

end Builder

/-! ### Compilations -/

section Compilations

variable {builder : Builder κ ε α} {value : HookCall α → α} (computes : builder.Computes value)

include computes

/-- A parse with a builder that only computes comes to the folded tree. -/
theorem parse_folded (text : String) (options : Options) (context : κ) :
    (parse builder.handler text options context).1 =
      ((Expression.ofText? text options).map (Expression.fold value)).mapError
        builder.ofError := by
  rw [Expression.ofText?_eq, parse_eq_run, parse_eq_run]
  exact (Dialogue.ofText_maps (Expression.fold value) text options).run (fun _ => rfl)
    computes.answers () context

/-- A compilation with a builder that only computes finishes the folded tree. -/
theorem compile_finished (text : String) (options : Options) (context : κ) :
    (compile builder text options context).outcome =
      ((Expression.ofText? text options).map fun tree =>
        value (.finish (tree.fold value))).mapError builder.ofError := by
  have compiled := congrArg Prod.fst (compile_eq builder text options context)
  have parsed := parse_folded computes text options context
  generalize parse builder.handler text options context = ran at compiled parsed
  obtain ⟨outcome, after⟩ := ran
  obtain rfl := parsed
  cases found : Expression.ofText? text options with
  | ok tree =>
    rw [found] at compiled
    exact compiled.trans (computes (.finish (tree.fold value)) after)
  | error error =>
    rw [found] at compiled
    exact compiled

/-- **A builder that only computes folds the tree.** If the text has a tree, the builder comes to
the tree folded with its hooks, and finished; if it has none, the builder fails with the error that
says why. So the canonical text that is built right away is the one that the tree shows. -/
theorem compile_folded (text : String) (options : Options) (context : κ) :
    (∀ tree, Expression.ofText? text options = .ok tree →
        (compile builder text options context).outcome =
          .ok (value (.finish (tree.fold value)))) ∧
      (∀ error, Expression.ofText? text options = .error error →
        (compile builder text options context).outcome = .error (builder.ofError error)) ∧
      ∀ ofError : Error → ε,
        (compile (Builder.canonicalText ofError) text options context).outcome =
          (compile (Builder.tree ofError) text options context).outcome.map
            Expression.display := by
  have compiled := compile_finished computes text options context
  refine ⟨fun tree found => ?_, fun error found => ?_, fun ofError => ?_⟩
  · rw [compiled, found]
    rfl
  · rw [compiled, found]
    rfl
  · rw [compile_finished (Builder.canonicalText_computes ofError),
      compile_finished (Builder.tree_computes ofError)]
    cases Expression.ofText? text options with
    | ok tree =>
      show Except.ok (tree.fold HookCall.text) = .ok (tree.fold HookCall.tree).display
      rw [Expression.display_isFold.fold_eq, Expression.id_isFold.fold_eq]
      rfl
    | error error => rfl

end Compilations

/-- The canonical text of a call, built right away, is that of its tree: without the parentheses
around the argument. -/
theorem compile_folded_call :
    (compile (Builder.canonicalText id : Builder Unit Error String) "f( (x) )" {} ()).outcome =
      .ok "f(x)" :=
  let inside := Derivation.alone (.reference "x" .lastName .uncalled) Rule.precedence
  let argument := Derivation.alone (.group inside) Rule.precedence
  let arguments := Derivation.called (.someArguments argument .lastArgument)
  have built : Expression.ofText? "f( (x) )" {} = .ok (.call ⟨["f"]⟩ [.reference ⟨["x"]⟩]) :=
    @Expression.ofText?_of_derivation "f( (x) )" {}
      (.alone (.reference "f" .lastName arguments) Rule.precedence)
      (by decide +kernel) (by decide +kernel)
  (compile_folded (Builder.canonicalText_computes id) "f( (x) )" {} ()).1 _ built

end Formula
