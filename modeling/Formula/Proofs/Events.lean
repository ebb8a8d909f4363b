/-
**What is reported agrees with what is built.**

A compilation into a tree reports one event for a whole chain, and an event also for layers that
leave no node. The tree has a node for every operator, and none for parentheses. Still the one can
be told from the other. An account says what an event adds to it and what a node of a tree does
(`Account`). It is balanced if what a production reports adds as much as the nodes it makes
(`Account.Balanced`); the nodes of a chain lie between its operands and are reported after them, so
what they add must not depend on where it is added (`Account.Uniform`). A balanced account comes to
the same over the events of a derivation and over the nodes of its tree (`Derivation.events_nodes`),
by induction on the derivation.

* `Expression.postorder`: the nodes of a tree, operands before what holds them.
* `Account.calls_balanced`, `Account.chains_balanced`, `Account.prefixes_balanced`: the accounts of
  calls, of the operators of a chain, and of the operators before an operand.
* `compile_events`: the events of a text that has a tree.
-/

import Mathlib.Algebra.GroupWithZero.Nat
import Mathlib.Data.List.Basic
import Formula.Proofs.Reporting

namespace Formula

variable {κ α β : Type}

/-! ### Nodes -/

namespace Expression

mutual

/-- The nodes of an expression, each with what is below it: from left to right, and operands before
what holds them. -/
def postorder : Expression → List Expression
  | literal value => [literal value]
  | reference target => [reference target]
  | call function arguments => postorderAll arguments ++ [call function arguments]
  | unary operator operand => operand.postorder ++ [unary operator operand]
  | binary operator left right =>
    left.postorder ++ (right.postorder ++ [binary operator left right])

/-- The nodes of expressions. -/
def postorderAll : List Expression → List Expression
  | [] => []
  | first :: rest => first.postorder ++ postorderAll rest

end

end Expression

/-- The nodes of the value of a part of the grammar. -/
def Phrase.nodes : (phrase : Phrase) → phrase.Value Expression → List Expression
  | layers _, tree => tree.postorder
  | links _ _, rest => Expression.postorderAll (rest.map Prod.snd)
  | names, _ => []
  | call, values => Expression.postorderAll (values.getD [])
  | arguments, values => Expression.postorderAll values
  | moreArguments, values => Expression.postorderAll values

/-! ### Accounts -/

/-- The symbols of the operators of a layer. -/
def Rule.symbols (rule : Rule) : List String :=
  rule.operators.map Operator.symbol

/-- The symbol of an operator of a layer is one of no other layer of the kind. -/
theorem Rule.mem_symbols_iff {rule other : Rule} {symbol : String}
    (same_kind : other.kind = rule.kind) (member : symbol ∈ other.symbols) :
    symbol ∈ rule.symbols ↔ other = rule := by
  constructor
  · intro in_rule
    obtain ⟨operator, in_other, rfl⟩ := List.mem_map.mp member
    obtain ⟨which, in_operators, same⟩ := List.mem_map.mp in_rule
    rw [Operator.symbol_injective same] at in_operators
    exact operators_disjoint same_kind in_other in_operators
  · rintro rfl
    exact member

/-- An account of a compilation: what an event adds to it, and what a node of a tree does. -/
structure Account (β : Type) where
  event : Event → List β
  node : Expression → List β

namespace Account

/-- Holds of an account to which all operators of a chain add the same, where it does not matter,
and to which the event of the chain adds it as often. -/
def Uniform (account : Account β) (rule : Rule) : Prop :=
  ∃ each : List β, (∀ others, each ++ others = others ++ each) ∧
    (∀ operators, account.event (.chain rule operators) =
      (List.replicate operators each).flatten) ∧
      ∀ symbol ∈ rule.symbols, ∀ left right, account.node (.binary symbol left right) = each

/-- Holds of an account to which what a production reports adds as much as the nodes that it
makes. -/
structure Balanced (account : Account β) : Prop where
  literal : ∀ value, account.node (.literal value) = []
  inexact : ∀ lexeme value, account.event (.inexact lexeme value) = []
  reference : ∀ target, account.node (.reference target) = []
  call : ∀ function arguments,
    account.event (.call function.name arguments.length) = account.node (.call function arguments)
  passthrough : ∀ rule, account.event (.layer rule .passthrough) = []
  operated : ∀ rule : Rule, rule.kind = .unary → ∀ symbol ∈ rule.symbols, ∀ operand,
    account.event (.layer rule .unary) = account.node (.unary symbol operand)
  chain : ∀ rule : Rule, rule.kind = .binary → account.Uniform rule

open Expression

variable {account : Account β}

/-- An account to which chains add nothing at all. -/
theorem uniform_of_silent {rule : Rule}
    (event : ∀ operators, account.event (.chain rule operators) = [])
    (node : ∀ symbol left right, account.node (.binary symbol left right) = []) :
    account.Uniform rule :=
  ⟨[], fun others => (List.append_nil others).symm, fun operators => by simp [event],
    fun symbol _ left right => node symbol left right⟩

/-- Reading a number adds nothing. -/
theorem Balanced.reading (balanced : account.Balanced) (lexeme : String) :
    (Token.number lexeme).inexact.flatMap account.event = [] := by
  rw [Token.inexact]
  cases Literal.inexact? lexeme with
  | none => rfl
  | some value => exact (List.flatMap_singleton _ _).trans (balanced.inexact lexeme value)

/-- What the nodes of a chain add: its operands, and then as much as its event. -/
theorem Balanced.chain_nodes (balanced : account.Balanced) {rule : Rule}
    (isBinary : rule.kind = .binary) {rest : List (String × Expression)}
    (each : ∀ link ∈ rest, link.1 ∈ rule.symbols) (first : Expression) :
    (rest.foldl (fun left link => .binary link.1 left link.2) first).postorder.flatMap
        account.node =
      first.postorder.flatMap account.node ++
        ((postorderAll (rest.map Prod.snd)).flatMap account.node ++
          account.event (.chain rule rest.length)) := by
  obtain ⟨part, commutes, event, node⟩ := balanced.chain rule isBinary
  induction rest generalizing first with
  | nil => simp [event, postorderAll]
  | cons link rest step =>
    obtain ⟨here, more⟩ := List.forall_mem_cons.mp each
    rw [List.foldl_cons, step more]
    simp only [postorder, List.map_cons, postorderAll, List.flatMap_append, List.flatMap_cons,
      List.flatMap_nil, List.append_nil, node _ here, event, List.length_cons,
      List.replicate_succ, List.flatten_cons, List.append_assoc]
    -- What the operator adds here goes past what the operands after it add.
    rw [← List.append_assoc part, commutes]
    simp only [List.append_assoc]

end Account

namespace Derivation

open Expression (postorder)

theorem links_symbols {rule : Rule} {tighter : List Rule} :
    (links : Derivation (.links rule tighter)) → ∀ link ∈ links.tree, link.1 ∈ rule.symbols
  | lastLink => List.forall_mem_nil _
  | link _ member _ links =>
    List.forall_mem_cons.mpr ⟨List.mem_map_of_mem member, links_symbols links⟩

/-- A balanced account comes to the same over the events of a derivation and over the nodes of its
value. -/
theorem events_nodes {account : Account β} (balanced : account.Balanced) {phrase : Phrase}
    (derivation : Derivation phrase) :
    derivation.events.flatMap account.event =
      (phrase.nodes derivation.tree).flatMap account.node := by
  induction derivation with
  | number lexeme =>
    rw [Derivation.tree, Phrase.nodes, postorder, List.flatMap_singleton, balanced.literal]
    exact balanced.reading lexeme
  | text content =>
    rw [Derivation.tree, Phrase.nodes, postorder, List.flatMap_singleton, balanced.literal]
    rfl
  | reference first names call _ call_step =>
    rw [events, Derivation.tree]
    generalize call.tree = values at call_step ⊢
    cases values with
    | none =>
      rw [Phrase.nodes, postorder, List.flatMap_singleton, balanced.reference]
      exact call_step
    | some arguments =>
      rw [Phrase.nodes, postorder, List.flatMap_append, List.flatMap_append, call_step,
        List.flatMap_singleton, List.flatMap_singleton, balanced.call]
      rfl
  | group inside step => exact step
  | chain binary first links first_step links_step =>
    have joined := balanced.chain_nodes binary (links_symbols links) first.tree
    rw [events, List.flatMap_append, List.flatMap_append, first_step, links_step,
      List.flatMap_singleton]
    exact joined.symm
  | operated unary operator member operand step =>
    rw [events, Derivation.tree, Phrase.nodes, postorder, List.flatMap_append,
      List.flatMap_append, step, List.flatMap_singleton, List.flatMap_singleton,
      balanced.operated _ unary _ (List.mem_map_of_mem member) operand.tree]
    rfl
  | bare unary operand step =>
    rw [events, List.flatMap_append, List.flatMap_singleton, balanced.passthrough, List.append_nil]
    exact step
  | link operator member operand links operand_step links_step =>
    rw [events, List.flatMap_append, operand_step, links_step]
    exact List.flatMap_append.symm
  | called arguments step => exact step
  | someArguments first more first_step more_step =>
    rw [events, List.flatMap_append, first_step, more_step]
    exact List.flatMap_append.symm
  | argument value more value_step more_step =>
    rw [events, List.flatMap_append, value_step, more_step]
    exact List.flatMap_append.symm
  | lastLink | lastName | name | uncalled | noArguments | lastArgument => rfl

end Derivation

/-! ### Calls -/

/-- The function and the number of arguments that a call reports. -/
def Event.call? : Event → Option (String × Nat)
  | call function arguments => some (function, arguments)
  | _ => none

/-- The function and the number of arguments of a call. -/
def Expression.call? : Expression → Option (String × Nat)
  | call function arguments => some (function.name, arguments.length)
  | _ => none

namespace Account

/-- The calls, in order. -/
def calls : Account (String × Nat) :=
  ⟨fun event => event.call?.toList, fun node => node.call?.toList⟩

theorem calls_balanced : calls.Balanced where
  literal _ := rfl
  inexact _ _ := rfl
  reference _ := rfl
  call _ _ := rfl
  passthrough _ := rfl
  operated _ _ _ _ _ := rfl
  chain _ _ := uniform_of_silent (fun _ => rfl) fun _ _ _ => rfl

/-! ### Operators -/

/-- How often something is met: an account of nothing but its length. -/
def tally (event : Event → Nat) (node : Expression → Bool) : Account Unit :=
  ⟨fun reported => List.replicate (event reported) (),
    fun made => List.replicate (node made).toNat ()⟩

theorem sum_toNat (meets : α → Bool) (items : List α) :
    (items.map fun item => (meets item).toNat).sum = items.countP meets := by
  induction items with
  | nil => rfl
  | cons item items step =>
    rw [List.map_cons, List.sum_cons, step, List.countP_cons, Nat.add_comm]
    cases meets item <;> rfl

theorem length_tally {event : Event → Nat} {node : Expression → Bool} {events : List Event}
    {nodes : List Expression}
    (same : events.flatMap (tally event node).event = nodes.flatMap (tally event node).node) :
    (events.map event).sum = nodes.countP node := by
  have lengths := congrArg List.length same
  simpa only [List.length_flatMap, tally, List.length_replicate, sum_toNat] using lengths

theorem units_commute (first second : List Unit) : first ++ second = second ++ first :=
  List.ext_getElem (by simp [Nat.add_comm]) fun _ _ _ => rfl

end Account

/-- How many operators of a layer an event reports. -/
def Event.operators (rule : Rule) : Event → Nat
  | chain other operators => if other = rule then operators else 0
  | _ => 0

/-- Holds of two operands with an operator of a layer between them. -/
def Expression.isBinary (rule : Rule) : Expression → Bool
  | binary symbol _ _ => symbol ∈ rule.symbols
  | _ => false

/-- Holds of an operand with an operator of a layer before it. -/
def Expression.isUnary (rule : Rule) : Expression → Bool
  | unary symbol _ => symbol ∈ rule.symbols
  | _ => false

namespace Account

/-- The operators of the chains of a layer. -/
def chains (rule : Rule) : Account Unit :=
  tally (Event.operators rule) (Expression.isBinary rule)

/-- The operators of a layer before an operand. -/
def prefixes (rule : Rule) : Account Unit :=
  tally (fun event => (event == .layer rule .unary).toNat) (Expression.isUnary rule)

theorem chains_balanced {rule : Rule} (isBinary : rule.kind = .binary) :
    (chains rule).Balanced where
  literal _ := rfl
  inexact _ _ := rfl
  reference _ := rfl
  call _ _ := rfl
  passthrough _ := rfl
  operated _ _ _ _ _ := rfl
  chain other other_binary := by
    refine ⟨List.replicate (decide (other = rule)).toNat (), units_commute _, ?_, ?_⟩
    · intro operators
      by_cases same : other = rule <;> simp [chains, tally, Event.operators, same]
    · intro symbol member _ _
      have known := Rule.mem_symbols_iff (other_binary.trans isBinary.symm) member
      simp [chains, tally, Expression.isBinary, known]

theorem prefixes_balanced {rule : Rule} (isUnary : rule.kind = .unary) :
    (prefixes rule).Balanced where
  literal _ := rfl
  inexact _ _ := rfl
  reference _ := rfl
  call _ _ := rfl
  passthrough _ := by simp [prefixes, tally]
  operated other other_unary symbol member _ := by
    have known := Rule.mem_symbols_iff (other_unary.trans isUnary.symm) member
    by_cases same : other = rule <;> simp [prefixes, tally, Expression.isUnary, known, same]
  chain _ _ := uniform_of_silent (fun _ => rfl) fun _ _ _ => rfl

end Account

/-! ### Levels -/

/-- The events of the level of debugging; no node adds to them. -/
def Account.debugging : Account Event :=
  ⟨fun event => [event].filter (·.level = .debug), fun _ => []⟩

theorem Account.debugging_balanced : debugging.Balanced where
  literal _ := rfl
  inexact _ _ := rfl
  reference _ := rfl
  call _ _ := rfl
  passthrough _ := rfl
  operated _ _ _ _ _ := rfl
  chain _ _ := uniform_of_silent (fun _ => rfl) fun _ _ _ => rfl

namespace Derivation

/-- No part of a derivation is worth an event of debugging. -/
theorem events_silent {phrase : Phrase} (derivation : Derivation phrase) :
    derivation.events.filter (·.level = .debug) = [] := by
  have same : derivation.events.flatMap Account.debugging.event = [] :=
    (derivation.events_nodes Account.debugging_balanced).trans
      (List.flatMap_eq_nil_iff.mpr fun _ _ => rfl)
  refine List.filter_eq_nil_iff.mpr fun event member isDebug => ?_
  have none := List.flatMap_eq_nil_iff.mp same event member
  exact List.filter_eq_nil_iff.mp none event List.mem_cons_self isDebug

end Derivation

/-! ### Compilations -/

/-- **The events of a text that has a tree agree with the tree.** The compilation is announced first
and once. The calls that are reported are the calls of the tree, operands first and from left to
right, by their names and how many arguments they have. Of each layer of chains as many operators
are reported as stand between two operands in the tree, and of each layer of operators before an
operand as many as stand before one. Warnings are given of the number tokens of the text, in order,
each read once. -/
theorem compile_events {text : String} {options : Options} {context : κ} {tree : Expression}
    (compiled : (compile (Builder.tree id) text options context).outcome = .ok tree) :
    let events := (compile (Builder.tree id) text options context).events.toList
    (events.head? = some (.compiling text) ∧
        events.filter (·.level = .debug) = [.compiling text]) ∧
      events.filterMap Event.call? = tree.postorder.filterMap Expression.call? ∧
      (∀ rule : Rule, rule.kind = .binary →
        (events.map (Event.operators rule)).sum =
          tree.postorder.countP (Expression.isBinary rule)) ∧
      (∀ rule : Rule, rule.kind = .unary →
        events.count (.layer rule .unary) = tree.postorder.countP (Expression.isUnary rule)) ∧
      events.filter (·.level = .warning) =
        (Lexing.ofText text options.comments).tokens.flatMap fun located =>
          located.token.inexact := by
  obtain ⟨derivation, spells, nesting, rfl⟩ := Expression.exists_derivation_of_compile compiled
  rw [compile_derivation spells nesting context, Array.toList_appendList]
  refine ⟨⟨rfl, ?_⟩, ?_, fun rule isBinary => ?_, fun rule isUnary => ?_, ?_⟩
  · exact congrArg (.compiling text :: ·) derivation.events_silent
  · have calls := derivation.events_nodes Account.calls_balanced
    rw [List.filterMap_eq_flatMap_toList, List.filterMap_eq_flatMap_toList]
    exact calls
  · have chains := derivation.events_nodes (Account.chains_balanced isBinary)
    exact (Nat.zero_add _).trans (Account.length_tally chains)
  · have prefixes := derivation.events_nodes (Account.prefixes_balanced isUnary)
    have counted := Account.length_tally prefixes
    rw [Account.sum_toNat] at counted
    have apart : Event.compiling text ≠ .layer rule .unary := nofun
    exact (List.count_cons_of_ne apart).trans counted
  · have spelled : (Lexing.ofText text options.comments).tokens.map Located.token =
        derivation.tokens := spells.1
    have warnings := derivation.events_inexact
    rw [← spelled, List.flatMap_map] at warnings
    exact warnings

/-- A difference of a call and a negated variable, with a number that is too large to be kept. -/
theorem compile_events_difference :
    let text := "f(9223372036854775809) - -x"
    let compilation := compile (Builder.tree id) text {} ()
    let events := compilation.events.toList
    compilation.outcome = .ok (.binary "-"
        (.call ⟨["f"]⟩ [.literal (.ofLexeme "9223372036854775809")])
        (.unary "-" (.reference ⟨["x"]⟩))) ∧
      events.filterMap Event.call? = [("f", 1)] ∧
      (events.map (Event.operators .sum)).sum = 1 ∧
      events.count (.layer .sign .unary) = 1 ∧
      events.filter (·.level = .warning) =
        [.inexact "9223372036854775809" (.ofRank false (1086 * 2 ^ 52))] := by
  intro text compilation events
  let argument := Derivation.alone (.number "9223372036854775809") Rule.precedence
  let arguments := Derivation.called (.someArguments argument .lastArgument)
  let call := Derivation.alone (.reference "f" .lastName arguments) [.product, .sign]
  let negated : Derivation (.layers [.product, .sign]) :=
    .chain rfl (.operated rfl .minus (by decide) (.bare rfl (.reference "x" .lastName .uncalled)))
      .lastLink
  let difference : Derivation (.layers [.sum, .product, .sign]) :=
    .chain rfl call (.link .minus (by decide) negated .lastLink)
  let comparison : Derivation (.layers [.comparison, .bitOr, .bitAnd, .sum, .product, .sign]) :=
    .chain rfl (.chain rfl (.chain rfl difference .lastLink) .lastLink) .lastLink
  let derivation : Derivation .expression :=
    .chain rfl (.chain rfl (.bare rfl comparison) .lastLink) .lastLink
  have spells : (Lexing.ofText text true).Spells derivation.tokens := by decide +kernel
  have nesting : derivation.nesting ≤ 32 := by decide +kernel
  have compiled : compilation.outcome = .ok derivation.tree :=
    congrArg Compilation.outcome (compile_derivation spells nesting ())
  obtain ⟨-, calls, chains, prefixes, warnings⟩ := compile_events compiled
  exact ⟨compiled, calls, chains .sum rfl, prefixes .sign rfl, warnings.trans (by decide +kernel)⟩

end Formula
