/-
**What compiles, and into what.**

A text compiles if its tokens are spelled by an expression that is not too deep, and then the
builder builds that expression and finishes it. There is one such expression at most.

* `Expression.ofText?_eq_ok_iff`: the texts that have a tree, and the tree.
* `compile_expression`: the outcome and the context of every builder.
-/

import Formula.Proofs.Build
import Formula.Proofs.Compile
import Formula.Usage

namespace Formula

variable {κ ε α : Type}

/-- Parsing an expression with a builder builds it. -/
theorem parse_build (builder : Builder κ ε α) {text : String} {options : Options}
    {derivation : Derivation .expression}
    (spells : (Lexing.ofText text options.comments).Spells derivation.tokens)
    (nesting : derivation.nesting ≤ options.depthLimit) (context : κ) :
    parse builder.handler text options context = (derivation.build builder).run.run context := by
  rw [parse_of_derivation builder.handler derivation spells nesting,
    derivation.perform_eq builder (Derivation.readable spells)]

/-- **Compiling an expression builds it and finishes the value.** -/
theorem compile_expression (builder : Builder κ ε α) (text : String) (options : Options)
    (derivation : Derivation .expression)
    (spells : (Lexing.ofText text options.comments).Spells derivation.tokens)
    (nesting : derivation.nesting ≤ options.depthLimit) (context : κ) :
    ((compile builder text options context).outcome,
        (compile builder text options context).context) =
      (do
        let root ← derivation.build builder
        builder.finish root).run.run context := by
  rw [compile_eq, parse_build builder spells nesting, Action.run_bind]
  generalize (derivation.build builder).run.run context = built
  obtain ⟨outcome, after⟩ := built
  cases outcome <;> rfl

/-- A call of one variable is spelled by an expression, so its tree is built while its names are
collected. -/
theorem compile_expression_call :
    (compile (Builder.collecting id) "f(x)" {} {}).outcome =
      .ok (.call ⟨["f"]⟩ [.reference ⟨["x"]⟩]) :=
  let argument := Derivation.alone (.reference "x" .lastName .uncalled) Rule.precedence
  let arguments := Derivation.called (.someArguments argument .lastArgument)
  congrArg Prod.fst (compile_expression (Builder.collecting id) "f(x)" {}
    (.alone (.reference "f" .lastName arguments) Rule.precedence) (by decide +kernel)
    (by decide +kernel) {})

namespace Expression

/-- A tree is finished as it is built. -/
theorem compile_tree (text : String) (options : Options) (context : κ) :
    (compile (Builder.tree id) text options context).outcome =
      (parse (Builder.tree id).handler text options context).1 := by
  have compiled := congrArg Prod.fst (compile_eq (Builder.tree id) text options context)
  generalize parse (Builder.tree id).handler text options context = parsed at compiled ⊢
  obtain ⟨outcome, after⟩ := parsed
  cases outcome <;> exact compiled

/-- A text that has a tree, in whatever context, is spelled by an expression that stands for it and
is not too deep. -/
theorem exists_derivation_of_compile {text : String} {options : Options} {context : κ}
    {tree : Expression}
    (compiled : (compile (Builder.tree id) text options context).outcome = .ok tree) :
    ∃ derivation : Derivation .expression,
      (Lexing.ofText text options.comments).Spells derivation.tokens ∧
        derivation.nesting ≤ options.depthLimit ∧ derivation.tree = tree := by
  rw [compile_tree] at compiled
  rcases parse_cases (Builder.tree id).handler text options context with
    ⟨_, -, derivation, spells, nesting⟩ | ⟨error, failed, -⟩ | ⟨_, error, _, -, -, failed⟩
  · rw [parse_build _ spells nesting, derivation.build_tree] at compiled
    cases compiled
    exact ⟨derivation, spells, nesting, rfl⟩
  · cases compiled.symm.trans failed
  · cases compiled.symm.trans failed

theorem ofText?_eq (text : String) (options : Options) :
    ofText? text options = (parse (Builder.tree id).handler text options ()).1 :=
  compile_tree text options ()

/-- An expression that spells a text and is not too deep gives the text its tree. -/
theorem ofText?_of_derivation {text : String} {options : Options}
    {derivation : Derivation .expression}
    (spells : (Lexing.ofText text options.comments).Spells derivation.tokens)
    (nesting : derivation.nesting ≤ options.depthLimit) :
    ofText? text options = .ok derivation.tree := by
  rw [ofText?_eq, parse_build _ spells nesting, derivation.build_tree]
  rfl

/-- A text that has a tree is spelled by an expression that stands for it and is not too deep. -/
theorem exists_derivation {text : String} {options : Options} {tree : Expression}
    (compiled : ofText? text options = .ok tree) :
    ∃ derivation : Derivation .expression,
      (Lexing.ofText text options.comments).Spells derivation.tokens ∧
        derivation.nesting ≤ options.depthLimit ∧ derivation.tree = tree :=
  exists_derivation_of_compile compiled

/-- **A text has a tree if its tokens are spelled by an expression that is not too deep, and it is
the tree of that expression.** No other expression spells them, and all its numbers have a value. -/
theorem ofText?_eq_ok_iff (text : String) (options : Options) :
    (∀ tree : Expression, ofText? text options = .ok tree ↔
      ∃ derivation : Derivation .expression,
        (Lexing.ofText text options.comments).Spells derivation.tokens ∧
          derivation.nesting ≤ options.depthLimit ∧ derivation.tree = tree) ∧
    ∀ derivation : Derivation .expression,
      (Lexing.ofText text options.comments).Spells derivation.tokens →
        (∀ other : Derivation .expression,
          (Lexing.ofText text options.comments).Spells other.tokens → other = derivation) ∧
        ∀ lexeme, Token.number lexeme ∈ derivation.tokens →
          Literal.ofLexeme? lexeme = some (.ofLexeme lexeme) := by
  refine ⟨fun tree => ⟨exists_derivation, ?_⟩, fun derivation spells => ⟨?_, ?_⟩⟩
  · rintro ⟨derivation, spells, nesting, rfl⟩
    exact ofText?_of_derivation spells nesting
  · intro other other_spells
    exact Derivation.tokens_injective (other_spells.1.symm.trans spells.1)
  · intro lexeme inside
    obtain ⟨literal, read⟩ := Derivation.readable spells _ inside
    rw [Literal.ofLexeme, read]
    rfl

/-- The parentheses around an argument leave no trace. -/
theorem ofText?_parenthesised_argument :
    ofText? "f((x))" = .ok (.call ⟨["f"]⟩ [.reference ⟨["x"]⟩]) :=
  let inside := Derivation.alone (.reference "x" .lastName .uncalled) Rule.precedence
  let argument := Derivation.alone (.group inside) Rule.precedence
  let arguments := Derivation.called (.someArguments argument .lastArgument)
  ((ofText?_eq_ok_iff "f((x))" {}).1 _).mpr
    ⟨.alone (.reference "f" .lastName arguments) Rule.precedence, by decide +kernel,
      by decide +kernel, rfl⟩

end Expression

end Formula
