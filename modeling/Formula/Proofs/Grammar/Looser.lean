/-
**The same in other layers.**

Alone in a looser layer an operand is what it was, and so it is in parentheses, where it may stand
in a tighter layer as well: the tree stays the same, and a builder makes the same of both. A pair of
parentheses is a level of nesting; layers are none.

* `Derivation.exists_looser`, `Derivation.exists_group`: in looser layers, and in parentheses.
* `Derivation.exists_parenthesised`: in parentheses, in the same layers.
* `Derivation.exists_operated`, `Derivation.exists_linked`: operators with operands of the tightest
  layer, in parentheses.
-/

import Formula.Proofs.Build

namespace Formula.Derivation

/-- Alone in looser layers an operand spells the same tokens, stands for the same tree and is as
deep, and builders make the same of it. -/
theorem exists_looser {inner : List Rule} (operand : Derivation (.layers inner))
    (outer : List Rule) {rules : List Rule} (same : rules = outer ++ inner) :
    ∃ derivation : Derivation (.layers rules), derivation.tokens = operand.tokens ∧
      derivation.tree = operand.tree ∧ derivation.level = operand.level ∧
      ∀ {κ ε α : Type} (builder : Builder κ ε α),
        derivation.build builder = operand.build builder := by
  subst same
  induction outer with
  | nil => exact ⟨operand, rfl, rfl, rfl, fun _ => rfl⟩
  | cons rule outer step =>
    obtain ⟨derivation, tokens, tree, level, built⟩ := step
    cases kind : rule.kind with
    | binary =>
      refine ⟨.chain kind derivation .lastLink, ?_, tree, ?_, fun builder => ?_⟩
      · rw [Derivation.tokens, Derivation.tokens, List.append_nil, tokens]
      · rw [Derivation.level, Derivation.level, Nat.max_zero, level]
      · simp only [build, built, pure_bind, List.foldlM_nil, bind_pure]
    | unary => exact ⟨.bare kind derivation, tokens, tree, level, built⟩

/-- Alone, an operand of the tightest layer is an expression of any layers. -/
theorem exists_alone (operand : Derivation (.layers [])) (rules : List Rule) :
    ∃ derivation : Derivation (.layers rules), derivation.tokens = operand.tokens ∧
      derivation.tree = operand.tree ∧ derivation.level = operand.level := by
  obtain ⟨derivation, tokens, tree, level, -⟩ :=
    operand.exists_looser rules (List.append_nil rules).symm
  exact ⟨derivation, tokens, tree, level⟩

/-- In parentheses an operand of any layers is an operand of the tightest. -/
theorem exists_group {rules : List Rule} (operand : Derivation (.layers rules))
    (outer : List Rule) (same : Rule.precedence = outer ++ rules) :
    ∃ derivation : Derivation (.layers []),
      derivation.tokens = .openParen :: (operand.tokens ++ [.closeParen]) ∧
        derivation.tree = operand.tree ∧ derivation.level = operand.level + 1 ∧
        ∀ {κ ε α : Type} (builder : Builder κ ε α),
          derivation.build builder = operand.build builder := by
  obtain ⟨inside, tokens, tree, level, built⟩ := operand.exists_looser outer same
  exact ⟨.group inside, by rw [Derivation.tokens, tokens], tree, by rw [Derivation.level, level],
    built⟩

/-- In parentheses an operand may stand where it stood without. -/
theorem exists_parenthesised {rules : List Rule} (operand : Derivation (.layers rules))
    (tight : rules <:+ Rule.precedence) :
    ∃ derivation : Derivation (.layers rules),
      derivation.tokens = .openParen :: (operand.tokens ++ [.closeParen]) ∧
        derivation.level = operand.level + 1 ∧
        ∀ {κ ε α : Type} (builder : Builder κ ε α),
          derivation.build builder = operand.build builder := by
  obtain ⟨outer, same⟩ := tight
  obtain ⟨group, group_tokens, -, group_level, group_built⟩ := operand.exists_group outer same.symm
  obtain ⟨derivation, tokens, -, level, built⟩ :=
    group.exists_looser rules (List.append_nil rules).symm
  exact ⟨derivation, tokens.trans group_tokens, level.trans group_level,
    fun builder => (built builder).trans (group_built builder)⟩

/-! ### Operands of the tightest layer -/

/-- An operator before an operand: two levels, for the parentheses and for the operand. -/
theorem exists_operated {rule : Rule} {operator : Operator} (isUnary : rule.kind = .unary)
    (member : operator ∈ rule.operators) (operand : Derivation (.layers [])) :
    ∃ derivation : Derivation (.layers []),
      derivation.tokens = .openParen :: (.operator operator :: operand.tokens ++ [.closeParen]) ∧
        derivation.tree = .unary operator.symbol operand.tree ∧
        derivation.level = operand.level + 2 := by
  obtain ⟨outer, tighter, precedence⟩ := List.append_of_mem (Rule.mem_precedence rule)
  obtain ⟨lifted, lifted_tokens, lifted_tree, lifted_level⟩ :=
    operand.exists_alone (rule :: tighter)
  obtain ⟨derivation, tokens, tree, level, -⟩ :=
    (operated isUnary operator member lifted).exists_group outer precedence
  refine ⟨derivation, ?_, ?_, ?_⟩
  · rw [tokens, Derivation.tokens, lifted_tokens]
  · rw [tree, Derivation.tree, lifted_tree]
  · rw [level, Derivation.level, lifted_level]

/-- An operator between two operands: one level, for the parentheses. The operands are alone in the
layers that are tighter than that of the operator. -/
theorem exists_linked {rule : Rule} {operator : Operator} (isBinary : rule.kind = .binary)
    (member : operator ∈ rule.operators) (first second : Derivation (.layers [])) :
    ∃ derivation : Derivation (.layers []),
      derivation.tokens =
          .openParen :: (first.tokens ++ .operator operator :: second.tokens ++ [.closeParen]) ∧
        derivation.tree = .binary operator.symbol first.tree second.tree ∧
        derivation.level = max first.level second.level + 1 := by
  obtain ⟨outer, tighter, precedence⟩ := List.append_of_mem (Rule.mem_precedence rule)
  obtain ⟨start, start_tokens, start_tree, start_level⟩ := first.exists_alone tighter
  obtain ⟨next, next_tokens, next_tree, next_level⟩ := second.exists_alone tighter
  obtain ⟨derivation, tokens, tree, level, -⟩ :=
    (chain isBinary start (.link operator member next .lastLink)).exists_group outer precedence
  refine ⟨derivation, ?_, ?_, ?_⟩
  · rw [tokens, Derivation.tokens, start_tokens, Derivation.tokens, next_tokens,
      Derivation.tokens, List.append_nil]
  · rw [tree, Derivation.tree, start_tree, Derivation.tree, next_tree]
    rfl
  · rw [level, Derivation.level, start_level, Derivation.level, next_level, Derivation.level,
      Nat.max_zero]

/-- An operand as an argument after others: one level. -/
theorem exists_argument (operand : Derivation (.layers [])) (more : Derivation .moreArguments) :
    ∃ derivation : Derivation .moreArguments,
      derivation.tokens = .comma :: (operand.tokens ++ more.tokens) ∧
        derivation.tree = operand.tree :: more.tree ∧
        derivation.level = max (operand.level + 1) more.level := by
  obtain ⟨value, tokens, tree, level⟩ := operand.exists_alone Rule.precedence
  refine ⟨argument value more, ?_, ?_, ?_⟩
  · rw [Derivation.tokens, tokens]
  · rw [Derivation.tree, tree]
  · rw [Derivation.level, level]

/-- An operand as the first argument: one level. -/
theorem exists_someArguments (operand : Derivation (.layers []))
    (more : Derivation .moreArguments) :
    ∃ derivation : Derivation .arguments,
      derivation.tokens = operand.tokens ++ (more.tokens ++ [.closeParen]) ∧
        derivation.tree = operand.tree :: more.tree ∧
        derivation.level = max (operand.level + 1) more.level := by
  obtain ⟨value, tokens, tree, level⟩ := operand.exists_alone Rule.precedence
  refine ⟨someArguments value more, ?_, ?_, ?_⟩
  · rw [Derivation.tokens, tokens]
  · rw [Derivation.tree, tree]
  · rw [Derivation.level, level]

end Formula.Derivation
