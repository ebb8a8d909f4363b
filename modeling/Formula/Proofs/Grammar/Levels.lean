/-
**The level of every token.**

A derivation gives each of its tokens a level (`Derivation.leveled`). The tokens of an expression in
parentheses, of an argument, and of the operand of an operator before it are one level deeper than
the parenthesis, the call or the operator that holds them; all others are at the level of what they
are a part of. The deepest token of a derivation is as deep as the derivation is.

* `Derivation.leveled_tokens`: the tokens are those that the derivation spells.
* `Derivation.levels_max`: the deepest level is the nesting.
* `Derivation.chain_level_le`: a chain is as deep as its deepest operand, however long it is.
-/

import Formula.Proofs.Grammar

namespace Formula

namespace Derivation

/-- The tokens of a derivation, each with its level, where the derivation is at some level. -/
@[simp]
def leveled {phrase : Phrase} : Derivation phrase → Nat → List (Token × Nat)
  | number lexeme, level => [(.number lexeme, level)]
  | text content, level => [(.text content, level)]
  | reference first names call, level =>
    (.name first, level) :: (names.leveled level ++ call.leveled level)
  | group inside, level =>
    (.openParen, level) :: (inside.leveled (level + 1) ++ [(.closeParen, level)])
  | chain _ first links, level => first.leveled level ++ links.leveled level
  | operated _ operator _ operand, level =>
    (.operator operator, level) :: operand.leveled (level + 1)
  | bare _ operand, level => operand.leveled level
  | lastLink, _ => []
  | link operator _ operand links, level =>
    (.operator operator, level) :: (operand.leveled level ++ links.leveled level)
  | lastName, _ => []
  | name letters names, level =>
    (.dot, level) :: (.name letters, level) :: names.leveled level
  | uncalled, _ => []
  | called arguments, level => (.openParen, level) :: arguments.leveled level
  | noArguments, level => [(.closeParen, level)]
  | someArguments first more, level =>
    first.leveled (level + 1) ++ (more.leveled level ++ [(.closeParen, level)])
  | lastArgument, _ => []
  | argument value more, level =>
    (.comma, level) :: (value.leveled (level + 1) ++ more.leveled level)

/-- The levels of the tokens of an expression, which is itself at level one. -/
def levels (derivation : Derivation .expression) : List Nat :=
  (derivation.leveled 1).map Prod.snd

theorem leveled_tokens {phrase : Phrase} (derivation : Derivation phrase) (level : Nat) :
    (derivation.leveled level).map Prod.fst = derivation.tokens := by
  induction derivation generalizing level <;> simp_all

/-- An expression begins at its own level. -/
theorem leveled_head {rules : List Rule} (derivation : Derivation (.layers rules)) (level : Nat) :
    ∃ token rest, derivation.leveled level = (token, level) :: rest := by
  generalize same : Phrase.layers rules = phrase at derivation
  induction derivation generalizing rules with
  | number | text | reference | group | operated => exact ⟨_, _, rfl⟩
  | chain binary first links first_head =>
    cases same
    obtain ⟨token, rest, head⟩ := first_head rfl
    exact ⟨token, rest ++ links.leveled level, by rw [leveled, head]; rfl⟩
  | bare unary operand operand_head =>
    cases same
    exact operand_head rfl
  | _ => cases same

/-- An expression has a token at its own level at least. -/
theorem leveled_fits_of_begins {rules : List Rule} {derivation : Derivation (.layers rules)}
    {limit : Nat} {level : Nat}
    (fits : level ≤ limit → ((∀ token ∈ derivation.leveled level, token.2 ≤ limit) ↔
      level + derivation.level ≤ limit)) :
    (∀ token ∈ derivation.leveled level, token.2 ≤ limit) ↔
      level + derivation.level ≤ limit := by
  by_cases here : level ≤ limit
  · exact fits here
  · obtain ⟨token, rest, head⟩ := derivation.leveled_head level
    refine iff_of_false (fun all => here ?_) (by omega)
    exact all (token, level) (head ▸ List.mem_cons_self)

/-- The tokens lie within a limit exactly if the levels of the derivation do. -/
theorem leveled_fits {phrase : Phrase} (derivation : Derivation phrase) {level limit : Nat}
    (here : level ≤ limit) :
    (∀ token ∈ derivation.leveled level, token.2 ≤ limit) ↔
      level + derivation.level ≤ limit := by
  induction derivation generalizing level with
  | number | text | noArguments =>
    simp only [leveled, Derivation.level, List.forall_mem_singleton, Nat.add_zero]
  | lastLink | lastName | uncalled | lastArgument =>
    exact iff_of_true (List.forall_mem_nil _) here
  | reference first names call names_fits call_fits =>
    simp only [leveled, Derivation.level, List.forall_mem_cons, List.forall_mem_append,
      names_fits here, call_fits here, level_names]
    omega
  | group inside fits =>
    simp only [leveled, Derivation.level, List.forall_mem_cons, List.forall_mem_append,
      List.not_mem_nil, false_implies, implies_true, and_true, leveled_fits_of_begins fits]
    omega
  | chain binary first links first_fits links_fits =>
    simp only [leveled, Derivation.level, List.forall_mem_append, first_fits here, links_fits here]
    omega
  | operated unary operator member operand fits =>
    simp only [leveled, Derivation.level, List.forall_mem_cons, leveled_fits_of_begins fits]
    omega
  | bare unary operand fits => exact fits here
  | link operator member operand links operand_fits links_fits =>
    simp only [leveled, Derivation.level, List.forall_mem_cons, List.forall_mem_append,
      operand_fits here, links_fits here]
    omega
  | name letters names fits =>
    simp only [leveled, Derivation.level, List.forall_mem_cons, fits here, level_names]
    omega
  | called arguments fits =>
    simp only [leveled, Derivation.level, List.forall_mem_cons, fits here]
    omega
  | someArguments first more first_fits more_fits =>
    simp only [leveled, Derivation.level, List.forall_mem_cons, List.forall_mem_append,
      List.not_mem_nil, false_implies, implies_true, and_true,
      leveled_fits_of_begins first_fits, more_fits here]
    omega
  | argument value more value_fits more_fits =>
    simp only [leveled, Derivation.level, List.forall_mem_cons, List.forall_mem_append,
      leveled_fits_of_begins value_fits, more_fits here]
    omega

/-- The tokens of an expression lie within a limit exactly if it is nested within it. -/
theorem leveled_within (derivation : Derivation .expression) {limit : Nat} :
    (∀ token ∈ derivation.leveled 1, token.2 ≤ limit) ↔ derivation.nesting ≤ limit := by
  rw [leveled_fits_of_begins derivation.leveled_fits, nesting, Nat.add_comm]

/-- **The deepest level of a token is the nesting of the expression.** -/
theorem levels_max (derivation : Derivation .expression) :
    derivation.levels.max? = some derivation.nesting := by
  have within (limit : Nat) :
      (∀ level ∈ derivation.levels, level ≤ limit) ↔ derivation.nesting ≤ limit := by
    rw [levels, List.forall_mem_map, leveled_within]
  cases deepest : derivation.levels.max? with
  | none =>
    obtain ⟨token, rest, head⟩ := derivation.leveled_head 1
    rw [List.max?_eq_none_iff, levels, head] at deepest
    cases deepest
  | some level =>
    rw [List.max?_eq_some_iff] at deepest
    have least := (within level).mp deepest.2
    have most := (within derivation.nesting).mpr (Nat.le_refl _) level deepest.1
    rw [Nat.le_antisymm most least]

/-! ### Chains -/

/-- The operands of a chain after the first one. -/
def operands {rule : Rule} {tighter : List Rule} :
    Derivation (.links rule tighter) → List (Derivation (.layers tighter))
  | lastLink => []
  | link _ _ operand links => operand :: links.operands

theorem links_level_le {rule : Rule} {tighter : List Rule}
    (links : Derivation (.links rule tighter)) (limit : Nat) :
    links.level ≤ limit ↔ ∀ operand ∈ links.operands, operand.level ≤ limit := by
  match links with
  | lastLink => simp [operands]
  | link _ _ operand links =>
    rw [level, Nat.max_le, links_level_le links limit, operands, List.forall_mem_cons]

/-- **A chain is as deep as its deepest operand**, however many operands it has. -/
theorem chain_level_le {rule : Rule} {tighter : List Rule} (binary : rule.kind = .binary)
    (first : Derivation (.layers tighter)) (links : Derivation (.links rule tighter))
    (limit : Nat) :
    (chain binary first links).level ≤ limit ↔
      first.level ≤ limit ∧ ∀ operand ∈ links.operands, operand.level ≤ limit := by
  rw [level, Nat.max_le, links_level_le]

end Derivation
end Formula
