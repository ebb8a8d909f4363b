/-
**The mentions of a tree.**

A reference on its own mentions a variable, and a call mentions its function and whatever its
arguments mention (`Expression.mentions`). Collecting makes its mentions while the tree is built,
one part at a time; in the end they are those of the tree, in order, and no others.

* `Action.Records`: an action that gives a value and does nothing else but add mentions.
* `Derivation.build_records`: building a part of the grammar records the mentions of its value.
* `Usage.ofText_tree`: what compiling a text records if the text has a tree.
-/

import Formula.Proofs.Collecting

namespace Formula

variable {ε α β : Type}

/-! ### Trees -/

namespace Expression

open Usage (Mention)

mutual

/-- The names of the variables and of the functions in an expression, from left to right, a function
after its arguments. -/
def mentions : Expression → List Mention
  | literal _ => []
  | reference target => [.variable target.name]
  | call function arguments => mentionsAll arguments ++ [.function function.name]
  | unary _ operand => operand.mentions
  | binary _ left right => left.mentions ++ right.mentions

/-- The names in expressions. -/
def mentionsAll : List Expression → List Mention
  | [] => []
  | first :: rest => first.mentions ++ mentionsAll rest

end

/-- A chain mentions what its operands mention, however it leans. -/
theorem mentions_chain (first : Expression) (rest : List (String × Expression)) :
    (rest.foldl (fun left link => .binary link.1 left link.2) first).mentions =
      first.mentions ++ mentionsAll (rest.map Prod.snd) := by
  induction rest generalizing first with
  | nil => exact (List.append_nil _).symm
  | cons link rest step =>
    rw [List.foldl_cons, step, mentions, List.map_cons, mentionsAll, List.append_assoc]

end Expression

/-- The names in the value of a part of the grammar. -/
def Phrase.mentions : (phrase : Phrase) → phrase.Value Expression → List Usage.Mention
  | layers _, tree => tree.mentions
  | links _ _, rest => Expression.mentionsAll (rest.map Prod.snd)
  | names, _ => []
  | call, values => Expression.mentionsAll (values.getD [])
  | arguments, values => Expression.mentionsAll values
  | moreArguments, values => Expression.mentionsAll values

/-! ### Recording -/

namespace Action

open Usage (Mention)

/-- Holds of an action that gives the value in every usage and adds the mentions to it. -/
def Records (action : Action Usage ε β) (value : β) (mentions : List Mention) : Prop :=
  ∀ usage, action.run.run usage = (.ok value, usage.addAll mentions)

theorem records_pure (value : β) : Records (pure value : Action Usage ε β) value [] :=
  fun _ => rfl

theorem Records.bind {first : Action Usage ε α} {next : α → Action Usage ε β} {value : α}
    {result : β} {mentions more : List Mention} (before : first.Records value mentions)
    (after : (next value).Records result more) :
    (first >>= next).Records result (mentions ++ more) := by
  intro usage
  rw [run_bind_of_ok (before usage), after, Usage.addAll, Usage.addAll, Usage.addAll,
    List.foldl_append]

/-- What only goes on with a value adds no mention. -/
theorem Records.map {action : Action Usage ε α} {value : α} {mentions : List Mention}
    (records : action.Records value mentions) (make : α → β) :
    (action >>= fun value => pure (make value)).Records (make value) mentions := by
  rw [← List.append_nil mentions]
  exact records.bind (records_pure _)

end Action

namespace Builder

open Formula.Action

variable (ofError : Error → ε)

theorem collecting_reference (target : Reference) :
    ((collecting ofError).reference target).Records (.reference target)
      [.variable target.name] :=
  fun _ => rfl

theorem collecting_call (function : Reference) (arguments : List Expression) :
    ((collecting ofError).call function arguments).Records (.call function arguments)
      [.function function.name] :=
  fun _ => rfl

/-- To join operands is to mention nothing. -/
theorem collecting_chain (first : Expression) (rest : List (String × Expression)) :
    ((collecting ofError).chain first rest).Records
      (rest.foldl (fun left link => .binary link.1 left link.2) first) [] := by
  induction rest generalizing first with
  | nil => exact records_pure first
  | cons link rest step =>
    exact (records_pure (Expression.binary link.1 first link.2)).bind (step _)

end Builder

namespace Derivation

open Formula.Action

/-- Building a part of the grammar gives its value and records the mentions of the value. -/
theorem build_records (ofError : Error → ε) {phrase : Phrase} (derivation : Derivation phrase) :
    (derivation.build (Builder.collecting ofError)).Records derivation.tree
      (phrase.mentions derivation.tree) := by
  induction derivation with
  | number lexeme => exact records_pure _
  | text content => exact records_pure _
  | reference first names call _ call_step =>
    rw [build, tree]
    generalize call.tree = called at call_step ⊢
    cases called with
    | none => exact call_step.bind (Builder.collecting_reference ofError _)
    | some arguments => exact call_step.bind (Builder.collecting_call ofError _ arguments)
  | group inside step => exact step
  | chain binary first links first_step links_step =>
    have joined := Builder.collecting_chain ofError first.tree links.tree
    have records : ((chain binary first links).build (Builder.collecting ofError)).Records _ _ :=
      first_step.bind (links_step.bind joined)
    rw [List.append_nil] at records
    show Records _ _ (Expression.mentions (List.foldl _ first.tree links.tree))
    rw [Expression.mentions_chain]
    exact records
  | operated unary operator member operand step =>
    exact step.map (Expression.unary operator.symbol)
  | bare unary operand step => exact step
  | lastLink => exact records_pure _
  | link operator member operand links operand_step links_step =>
    exact operand_step.bind (links_step.map _)
  | lastName => exact records_pure _
  | name letters names => exact records_pure _
  | uncalled => exact records_pure _
  | called arguments step => exact step.map some
  | noArguments => exact records_pure _
  | someArguments first more first_step more_step => exact first_step.bind (more_step.map _)
  | lastArgument => exact records_pure _
  | argument value more value_step more_step => exact value_step.bind (more_step.map _)

end Derivation

/-! ### Texts that have a tree -/

/-- A text that has a tree records the mentions of the tree. -/
theorem Usage.ofText_tree {text : String} {options : Options} {tree : Expression}
    (compiled : Expression.ofText? text options = .ok tree) :
    Usage.ofText text options = addAll {} tree.mentions := by
  obtain ⟨derivation, spells, nesting, rfl⟩ := Expression.exists_derivation compiled
  have compiled := compile_eq (Builder.collecting id) text options {}
  rw [parse_build _ spells nesting, derivation.build_records id {}] at compiled
  exact congrArg Prod.snd compiled

end Formula
