/-
**How far a tree goes down.**

A path goes from an expression to a part of it, one step at a time (`Expression.Path`). In the tree
of a text the limit of nesting bounds the steps of a path into operands and arguments, since each
takes a level, and the steps to the right: between two levels, each of them goes on to a tighter
layer, and a chain belongs to one of seven. Parentheses take a level and leave no step. Steps to the
left are not bounded: they are those along a chain.

* `Derivation.tree_bounded`: the steps in the tree of a derivation.
* `Expression.exists_chain`: a chain of any length within a limit of one.
* `Expression.ofText?_bounded`: the steps in the tree of a text.
-/

import Formula.Proofs.Image

namespace Formula

namespace Expression

/-! ### Paths -/

/-- A step from an expression to a part of it. -/
inductive Step
  | operand
  | argument (index : Nat)
  | left
  | right
  deriving DecidableEq

/-- Holds of the steps into an operand or an argument. -/
def Step.isInward : Step → Bool
  | operand | argument _ => true
  | left | right => false

/-- Holds of the steps that lead from an expression to a part of it. -/
inductive Path : Expression → List Step → Expression → Prop
  | here (expression : Expression) : Path expression [] expression
  | operand {operator : String} {operand part : Expression} {steps : List Step}
    (path : Path operand steps part) : Path (.unary operator operand) (.operand :: steps) part
  | argument {function : Reference} {arguments : List Expression} {index : Nat}
    {argument part : Expression} {steps : List Step} (found : arguments[index]? = some argument)
    (path : Path argument steps part) :
    Path (.call function arguments) (.argument index :: steps) part
  | left {operator : String} {left right part : Expression} {steps : List Step}
    (path : Path left steps part) : Path (.binary operator left right) (.left :: steps) part
  | right {operator : String} {left right part : Expression} {steps : List Step}
    (path : Path right steps part) : Path (.binary operator left right) (.right :: steps) part

/-- From a chain to its first operand it is as many steps to the left as the chain has operators. -/
theorem Path.chain {first part : Expression} {steps : List Step} (path : first.Path steps part)
    (rest : List (String × Expression)) :
    (rest.foldl (fun left link => .binary link.1 left link.2) first).Path
      (List.replicate rest.length .left ++ steps) part := by
  induction rest generalizing first steps with
  | nil => exact path
  | cons link rest step =>
    have longer : (Expression.binary link.1 first link.2).Path (.left :: steps) part := path.left
    rw [List.length_cons, List.replicate_succ', List.append_assoc]
    exact step longer

/-! ### Bounds -/

/-- Holds of an expression in which every path has fewer steps inward than the levels, and no more
steps to the right than these. -/
def Bounded (levels rights : Nat) (expression : Expression) : Prop :=
  ∀ steps part, expression.Path steps part →
    steps.countP Step.isInward < levels ∧ steps.count .right ≤ rights

namespace Bounded

variable {levels rights : Nat}

theorem mono {more_levels more_rights : Nat} {expression : Expression}
    (bounded : expression.Bounded levels rights) (more : levels ≤ more_levels)
    (longer : rights ≤ more_rights) : expression.Bounded more_levels more_rights := by
  intro steps part path
  obtain ⟨inward, right⟩ := bounded steps part path
  exact ⟨Nat.lt_of_lt_of_le inward more, Nat.le_trans right longer⟩

theorem literal (value : Literal) : (literal value).Bounded (levels + 1) rights := by
  rintro _ _ ⟨⟩
  exact ⟨Nat.succ_pos levels, Nat.zero_le rights⟩

theorem reference (target : Reference) : (reference target).Bounded (levels + 1) rights := by
  rintro _ _ ⟨⟩
  exact ⟨Nat.succ_pos levels, Nat.zero_le rights⟩

/-- An argument is one step inward. -/
theorem call {function : Reference} {arguments : List Expression}
    (each : ∀ argument ∈ arguments, argument.Bounded levels rights) :
    (call function arguments).Bounded (levels + 1) rights := by
  intro steps part path
  cases path with
  | here => exact ⟨Nat.succ_pos levels, Nat.zero_le rights⟩
  | argument found path =>
    have bounds := each _ (List.mem_of_getElem? found) _ _ path
    simpa [List.countP_cons, Step.isInward] using bounds

/-- So is an operand. -/
theorem unary {operator : String} {operand : Expression}
    (inside : operand.Bounded levels rights) :
    (unary operator operand).Bounded (levels + 1) rights := by
  intro steps part path
  cases path with
  | here => exact ⟨Nat.succ_pos levels, Nat.zero_le rights⟩
  | operand path =>
    have bounds := inside _ _ path
    simpa [List.countP_cons, Step.isInward] using bounds

/-- Only the operand on the right is a step to the right. -/
theorem binary {operator : String} {left right : Expression}
    (before : left.Bounded levels (rights + 1)) (after : right.Bounded levels rights) :
    (binary operator left right).Bounded levels (rights + 1) := by
  intro steps part path
  cases path with
  | here => exact ⟨(before [] left (.here left)).1, Nat.zero_le _⟩
  | left path =>
    have bounds := before _ _ path
    simpa [List.countP_cons, Step.isInward] using bounds
  | right path =>
    have bounds := after _ _ path
    simpa [List.countP_cons, Step.isInward] using bounds

/-- In a chain a path goes to the right once, however long the chain is. -/
theorem chain {first : Expression} {rest : List (String × Expression)}
    (begins : first.Bounded levels (rights + 1))
    (each : ∀ link ∈ rest, link.2.Bounded levels rights) :
    (rest.foldl (fun left link => .binary link.1 left link.2) first).Bounded levels
      (rights + 1) := by
  induction rest generalizing first with
  | nil => exact begins
  | cons link rest step =>
    obtain ⟨here, more⟩ := List.forall_mem_cons.mp each
    exact step (begins.binary here) more

end Bounded

end Expression

/-! ### The trees of derivations -/

/-- How many layers of a list are chains. -/
def Rule.chains (rules : List Rule) : Nat :=
  rules.countP fun rule => rule.kind = .binary

theorem Rule.chains_binary {rule : Rule} (isBinary : rule.kind = .binary) (tighter : List Rule) :
    chains (rule :: tighter) = chains tighter + 1 :=
  List.countP_cons_of_pos (decide_eq_true isBinary)

theorem Rule.chains_le (rule : Rule) (tighter : List Rule) :
    chains tighter ≤ chains (rule :: tighter) :=
  (List.sublist_cons_self rule tighter).countP_le

/-- Holds of the values of a part of the grammar in which the steps of every path are bounded by the
level of a derivation and the layers that are left. -/
def Phrase.Bounded (level : Nat) : (phrase : Phrase) → phrase.Value Expression → Prop
  | layers rules, tree => tree.Bounded (level + 1) (Rule.chains rules + 7 * level)
  | links _ tighter, rest =>
    ∀ link ∈ rest, link.2.Bounded (level + 1) (Rule.chains tighter + 7 * level)
  | names, _ => True
  | call, values => ∀ argument ∈ values.getD [], argument.Bounded level (7 * level)
  | arguments, values => ∀ argument ∈ values, argument.Bounded level (7 * level)
  | moreArguments, values => ∀ argument ∈ values, argument.Bounded level (7 * level)

namespace Derivation

open Expression (Bounded)

/-- The tree of an expression one level deeper. -/
theorem deeper_bounded {tree : Expression} {inner level : Nat} (deeper : inner + 1 ≤ level)
    (bounded : Phrase.expression.Bounded inner tree) : tree.Bounded level (7 * level) := by
  have seven : Rule.chains Rule.precedence = 7 := rfl
  have inside : tree.Bounded (inner + 1) (Rule.chains Rule.precedence + 7 * inner) := bounded
  exact inside.mono deeper (by omega)

/-- In the value of a derivation the steps of every path are bounded. -/
theorem tree_bounded {phrase : Phrase} (derivation : Derivation phrase) {level : Nat}
    (within : derivation.level ≤ level) : phrase.Bounded level derivation.tree := by
  induction derivation generalizing level with
  | number lexeme => exact Bounded.literal _
  | text content => exact Bounded.literal _
  | reference first names call _ call_step =>
    have each := call_step within
    show Bounded _ _ (tree (.reference first names call))
    rw [tree]
    generalize call.tree = values at each
    cases values with
    | none => exact Bounded.reference _
    | some arguments => exact (Bounded.call each).mono (Nat.le_refl _) (Nat.le_add_left _ _)
  | group inside step =>
    rw [Derivation.level] at within
    have bounded := deeper_bounded within (step (Nat.le_refl _))
    exact bounded.mono (Nat.le_succ _) (Nat.le_add_left _ _)
  | @chain rule tighter isBinary first links first_step links_step =>
    rw [Derivation.level, Nat.max_le] at within
    have begins : Bounded _ _ first.tree := first_step within.1
    have rights : Rule.chains tighter + 7 * level + 1 =
        Rule.chains (rule :: tighter) + 7 * level := by
      rw [Rule.chains_binary isBinary]
      omega
    have bounded := (begins.mono (Nat.le_refl _) (Nat.le_succ _)).chain (links_step within.2)
    rw [rights] at bounded
    exact bounded
  | operated isUnary operator member operand step =>
    rw [Derivation.level] at within
    have inside : Bounded _ _ operand.tree := step (Nat.le_refl _)
    exact inside.unary.mono (Nat.succ_le_succ within) (by omega)
  | @bare rule tighter isUnary operand step =>
    have inside : Bounded _ _ operand.tree := step within
    have looser := Rule.chains_le rule tighter
    exact inside.mono (Nat.le_refl _) (by omega)
  | link operator member operand links operand_step links_step =>
    rw [Derivation.level, Nat.max_le] at within
    exact List.forall_mem_cons.mpr ⟨operand_step within.1, links_step within.2⟩
  | called arguments step => exact step within
  | someArguments first more first_step more_step =>
    rw [Derivation.level, Nat.max_le] at within
    exact List.forall_mem_cons.mpr
      ⟨deeper_bounded within.1 (first_step (Nat.le_refl _)), more_step within.2⟩
  | argument value more value_step more_step =>
    rw [Derivation.level, Nat.max_le] at within
    exact List.forall_mem_cons.mpr
      ⟨deeper_bounded within.1 (value_step (Nat.le_refl _)), more_step within.2⟩
  | lastName | name => trivial
  | lastLink | uncalled | noArguments | lastArgument => exact List.forall_mem_nil _

/-! ### Chains -/

/-- Operators of a layer are the links of a chain, each with the same operand, and however many
there are, they are no deeper than the operand. -/
theorem exists_links {rule : Rule} {tighter : List Rule} (operand : Derivation (.layers tighter))
    (spellable : ∀ token ∈ operand.tokens, token.Spellable) {operators : List Operator}
    (members : ∀ operator ∈ operators, operator ∈ rule.operators) :
    ∃ links : Derivation (.links rule tighter),
      links.tree = operators.map (fun operator => (operator.symbol, operand.tree)) ∧
        links.level ≤ operand.level ∧ ∀ token ∈ links.tokens, token.Spellable := by
  induction operators with
  | nil => exact ⟨.lastLink, rfl, Nat.zero_le _, List.forall_mem_nil _⟩
  | cons operator operators step =>
    obtain ⟨member, more⟩ := List.forall_mem_cons.mp members
    obtain ⟨links, tree, level, links_spellable⟩ := step more
    refine ⟨.link operator member operand links, ?_, Nat.max_le.mpr ⟨Nat.le_refl _, level⟩, ?_⟩
    · rw [Derivation.tree, tree, List.map_cons]
    · rw [Derivation.tokens, List.forall_mem_cons, List.forall_mem_append]
      exact ⟨Token.operator_spellable operator, spellable, links_spellable⟩

end Derivation

namespace Expression

/-- A chain of any length is the tree of a text within a limit of one. -/
theorem exists_chain {rule : Rule} (isBinary : rule.kind = .binary) {operators : List Operator}
    (members : ∀ operator ∈ operators, operator ∈ rule.operators) :
    ∃ (text : String) (tree : Expression),
      (∀ comments, ofText? text ⟨comments, 1⟩ = .ok tree) ∧
        tree.Path (List.replicate operators.length .left) (.reference ⟨["x"]⟩) := by
  obtain ⟨outer, tighter, precedence⟩ := List.append_of_mem (Rule.mem_precedence rule)
  have isName : IsName "x" := by decide
  let inner : Derivation (.layers []) := .reference "x" .lastName .uncalled
  obtain ⟨operand, tokens, tree, level⟩ := inner.exists_alone tighter
  have spellable : ∀ token ∈ operand.tokens, token.Spellable := by
    rw [tokens]
    exact List.forall_mem_singleton.mpr (Token.name_spellable isName)
  obtain ⟨links, links_tree, links_level, links_spellable⟩ :=
    operand.exists_links spellable members
  obtain ⟨derivation, same_tokens, same_tree, same_level, -⟩ :=
    (Derivation.chain isBinary operand links).exists_looser outer precedence
  obtain ⟨text, spells⟩ := derivation.exists_spells (by
    rw [same_tokens, Derivation.tokens]
    exact List.forall_mem_append.mpr ⟨spellable, links_spellable⟩)
  have flat : operand.level = 0 := level
  have nesting : derivation.nesting ≤ 1 := by
    rw [Derivation.nesting, same_level, Derivation.level]
    omega
  have compiled : ∀ comments, ofText? text ⟨comments, 1⟩ = .ok derivation.tree :=
    fun comments => ofText?_of_derivation (spells comments) nesting
  have length : links.tree.length = operators.length := by rw [links_tree, List.length_map]
  have path := (Path.here operand.tree).chain links.tree
  rw [length, List.append_nil, tree] at path
  refine ⟨text, derivation.tree, compiled, ?_⟩
  rw [same_tree, Derivation.tree, tree]
  exact path

/-- **The limit of nesting bounds a tree in every direction but one.** On every path in the tree of
a text the steps into operands and arguments are fewer than the levels of the limit, and there are
seven times as many steps to the right at most. Steps to the left are not bounded: a chain of any
length is the tree of a text within a limit of one. -/
theorem ofText?_bounded :
    (∀ (text : String) (options : Options) (tree : Expression), ofText? text options = .ok tree →
      ∀ (steps : List Step) (part : Expression), tree.Path steps part →
        steps.countP Step.isInward < options.depthLimit ∧
          steps.count .right ≤ 7 * options.depthLimit) ∧
    ∀ (rule : Rule), rule.kind = .binary →
      ∀ operators : List Operator, (∀ operator ∈ operators, operator ∈ rule.operators) →
        ∃ (text : String) (tree : Expression),
          (∀ comments, ofText? text ⟨comments, 1⟩ = .ok tree) ∧
            tree.Path (List.replicate operators.length .left) (.reference ⟨["x"]⟩) := by
  refine ⟨fun text options tree compiled => ?_, fun rule isBinary operators members =>
    exists_chain isBinary members⟩
  obtain ⟨derivation, -, nesting, rfl⟩ := exists_derivation compiled
  rw [Derivation.nesting] at nesting
  exact Derivation.deeper_bounded nesting (derivation.tree_bounded (Nat.le_refl _))

/-- A negated difference as the argument of a call, and a chain of products. -/
theorem ofText?_bounded_difference :
    let difference : Expression := .binary "-" (.reference ⟨["a"]⟩) (.reference ⟨["b"]⟩)
    (ofText? "f((- (a - b)))" ⟨true, 7⟩ = .ok (.call ⟨["f"]⟩ [.unary "-" difference]) ∧
      [Step.argument 0, .operand, .right].countP Step.isInward < 7 ∧
        [Step.argument 0, .operand, .right].count .right ≤ 49) ∧
    ∃ (text : String) (tree : Expression), (∀ comments, ofText? text ⟨comments, 1⟩ = .ok tree) ∧
      tree.Path [.left, .left, .left] (.reference ⟨["x"]⟩) := by
  intro difference
  let root : Expression := .call ⟨["f"]⟩ [.unary "-" difference]
  have writable : root.Writable := by
    have named : Reference.Named ⟨["f"]⟩ ∧ Reference.Named ⟨["a"]⟩ ∧ Reference.Named ⟨["b"]⟩ := by
      decide +kernel
    have negation : "-" ∈ Kind.unary.symbols := by decide
    have subtraction : "-" ∈ Kind.binary.symbols := by decide
    refine .call named.1 (List.forall_mem_singleton.mpr (.unary negation ?_))
    exact .binary subtraction (.reference named.2.1) (.reference named.2.2)
  have compiled : ofText? "f((- (a - b)))" ⟨true, 7⟩ = .ok root := by
    have text : root.written = "f((- (a - b)))" := by decide +kernel
    rw [← text]
    exact writable.reads (by decide +kernel)
  have path : root.Path [.argument 0, .operand, .right] (.reference ⟨["b"]⟩) :=
    .argument rfl (.operand (.right (.here _)))
  exact ⟨⟨compiled, ofText?_bounded.1 _ _ _ compiled _ _ path⟩,
    ofText?_bounded.2 .product rfl [.times, .divide, .remainder] (by decide)⟩

end Expression

end Formula
