/-
**Viable and blocked beginnings.**

Tokens are viable for a part of the grammar if a derivation of it begins with them, and blocked if
nothing can be read off a stream that begins with them. A derivation that is read from left to right
is viable as far as it goes; at a token that fits nowhere it is blocked. Both pass from the part
that is being read to the part that goes on with it (`Phrase.Continues`), one statement for each
place of each production.

* `Phrase.Blocked.not_viable`: what is blocked is no beginning of an expression.
-/

import Formula.Proofs.Grammar.Reading

namespace Formula

namespace Phrase

/-- Holds of the beginnings of what a part of the grammar derives. -/
def Viable (phrase : Phrase) (tokens : List Token) : Prop :=
  ∃ (derivation : Derivation phrase) (rest : List Token), derivation.tokens = tokens ++ rest

/-- Holds of the beginnings of streams off which nothing can be read. -/
def Blocked (phrase : Phrase) (tokens : List Token) : Prop :=
  ∀ (derivation : Derivation phrase) (more rest : List Token),
    ¬ derivation.Reads (tokens ++ more) rest

/-- After the tokens seen, at the next token, a part of the grammar goes on with an inner one. -/
structure Continues (phrase : Phrase) (seen : List Token) (next : Token) (inner : Phrase) :
    Prop where
  viable : ∀ tokens, inner.Viable tokens → phrase.Viable (seen ++ tokens)
  blocked : ∀ tokens, inner.Blocked (next :: tokens) → phrase.Blocked (seen ++ next :: tokens)

theorem Viable.of_append {phrase : Phrase} {tokens more : List Token}
    (viable : phrase.Viable (tokens ++ more)) : phrase.Viable tokens := by
  obtain ⟨derivation, rest, spelled⟩ := viable
  exact ⟨derivation, more ++ rest, by rw [spelled, List.append_assoc]⟩

/-- What is blocked is no beginning of an expression. -/
theorem Blocked.not_viable {tokens : List Token} (blocked : expression.Blocked tokens) :
    ¬ expression.Viable tokens := by
  rintro ⟨derivation, rest, spelled⟩
  exact blocked derivation rest [] (spelled ▸ derivation.reads_tokens)

/-- Every layer derives something. -/
theorem exists_layers (rules : List Rule) : Nonempty (Derivation (.layers rules)) :=
  ⟨.alone (.number "0") rules⟩

theorem viable_nil (rules : List Rule) : (layers rules).Viable [] := by
  obtain ⟨derivation⟩ := exists_layers rules
  exact ⟨derivation, _, rfl⟩

end Phrase

namespace Derivation

theorem viable {phrase : Phrase} (derivation : Derivation phrase) :
    phrase.Viable derivation.tokens :=
  ⟨derivation, [], (List.append_nil _).symm⟩

end Derivation

namespace Phrase

open Formula.Derivation

variable {next : Token} {rule : Rule} {tighter : List Rule}

/-! ### Operands -/

theorem blocked_operand (other : ¬ next.Begins []) : (layers []).Blocked [next] :=
  fun _ _ _ reads => other reads.begins

theorem continues_names (first : String) : (layers []).Continues [.name first] next .names where
  viable := by
    rintro tokens ⟨names, rest, spelled⟩
    exact ⟨reference first names uncalled, rest, by simp [Derivation.tokens, spelled]⟩
  blocked := by
    intro tokens blocked derivation more rest reads
    cases derivation with
    | reference first' names call =>
      obtain ⟨after, middle, same, names_read, -⟩ := reads_reference.mp reads
      cases same
      exact blocked names more middle names_read
    | _ => grind

theorem continues_call (first : String) {names : Derivation .names} (ends : names.EndsBefore next) :
    (layers []).Continues (.name first :: names.tokens) next .call where
  viable := by
    rintro tokens ⟨call, rest, spelled⟩
    exact ⟨reference first names call, rest, by simp [Derivation.tokens, spelled]⟩
  blocked := by
    intro tokens blocked derivation more rest reads
    cases derivation with
    | reference first' names' call =>
      obtain ⟨after, middle, same, names_read, call_read⟩ := reads_reference.mp reads
      rw [List.cons_append, List.cons_append, List.append_assoc] at same
      cases same
      obtain ⟨-, rfl⟩ := ends.reads_eq (show Ordered .names from trivial) names_read
      exact blocked call more rest call_read
    | _ => grind

theorem continues_inside : (layers []).Continues [.openParen] next .expression where
  viable := by
    rintro tokens ⟨inside, rest, spelled⟩
    exact ⟨group inside, rest ++ [.closeParen], by simp [Derivation.tokens, spelled]⟩
  blocked := by
    intro tokens blocked derivation more rest reads
    cases derivation with
    | group inside =>
      obtain ⟨after, same, inside_read⟩ := reads_group.mp reads
      cases same
      exact blocked inside more _ inside_read
    | _ => grind

theorem blocked_group {inside : Derivation .expression} (ends : inside.EndsBefore next)
    (other : next ≠ .closeParen) :
    (layers []).Blocked (.openParen :: (inside.tokens ++ [next])) := by
  intro derivation more rest reads
  cases derivation with
  | group inside' =>
    obtain ⟨after, same, inside_read⟩ := reads_group.mp reads
    rw [List.cons_append, List.append_assoc] at same
    cases same
    cases (ends.reads_eq expression_ordered inside_read).2
    exact other rfl
  | _ => grind

/-! ### Names and arguments -/

theorem blocked_name (other : ∀ letters, next ≠ .name letters) : names.Blocked [.dot, next] := by
  intro derivation more rest reads
  cases derivation <;> grind

theorem continues_name (letters : String) :
    names.Continues [.dot, .name letters] next .names where
  viable := by
    rintro tokens ⟨names, rest, spelled⟩
    exact ⟨name letters names, rest, by simp [Derivation.tokens, spelled]⟩
  blocked := by
    intro tokens blocked derivation more rest reads
    cases derivation with
    | lastName => grind
    | name letters' names =>
      obtain ⟨after, same, names_read⟩ := reads_name.mp reads
      cases same
      exact blocked names more rest names_read

theorem continues_arguments : call.Continues [.openParen] next .arguments where
  viable := by
    rintro tokens ⟨arguments, rest, spelled⟩
    exact ⟨called arguments, rest, by simp [Derivation.tokens, spelled]⟩
  blocked := by
    intro tokens blocked derivation more rest reads
    cases derivation with
    | uncalled => grind
    | called arguments =>
      obtain ⟨after, same, arguments_read⟩ := reads_called.mp reads
      cases same
      exact blocked arguments more rest arguments_read

theorem continues_first (other : next ≠ .closeParen) : arguments.Continues [] next .expression where
  viable := by
    rintro tokens ⟨first, rest, spelled⟩
    exact ⟨someArguments first lastArgument, rest ++ [.closeParen],
      by simp [Derivation.tokens, spelled]⟩
  blocked := by
    intro tokens blocked derivation more rest reads
    cases derivation with
    | noArguments => grind
    | someArguments first others =>
      obtain ⟨middle, first_read, -⟩ := reads_someArguments.mp reads
      exact blocked first more middle first_read

theorem continues_more {first : Derivation .expression} (ends : first.EndsBefore next) :
    arguments.Continues first.tokens next .moreArguments where
  viable := by
    rintro tokens ⟨more, rest, spelled⟩
    exact ⟨someArguments first more, rest ++ [.closeParen], by simp [Derivation.tokens, spelled]⟩
  blocked := by
    intro tokens blocked derivation more rest reads
    cases derivation with
    | noArguments =>
      obtain ⟨token, after, spelled, begins⟩ := first.begins
      rw [spelled] at reads
      cases reads_noArguments.mp reads
      exact begins
    | someArguments first' others =>
      obtain ⟨middle, first_read, others_read⟩ := reads_someArguments.mp reads
      rw [List.append_assoc] at first_read
      obtain ⟨-, rfl⟩ := ends.reads_eq expression_ordered first_read
      exact blocked others more _ others_read

theorem blocked_arguments {first : Derivation .expression} {more : Derivation .moreArguments}
    (first_ends : first.EndsBefore (more.tokens.headD next)) (more_ends : more.EndsBefore next)
    (other : next ≠ .closeParen) :
    arguments.Blocked (first.tokens ++ (more.tokens ++ [next])) := by
  intro derivation rest rest' reads
  cases derivation with
  | noArguments =>
    obtain ⟨token, after, spelled, begins⟩ := first.begins
    rw [spelled] at reads
    cases reads_noArguments.mp reads
    exact begins
  | someArguments first' others =>
    obtain ⟨middle, first_read, others_read⟩ := reads_someArguments.mp reads
    have first_reads : first.Reads (first.tokens ++ (more.tokens ++ [next]) ++ rest)
        (more.tokens ++ next :: rest) :=
      ⟨by simp, by rw [headD_append]; exact first_ends⟩
    obtain ⟨rfl, rfl⟩ := first_reads.unique expression_ordered first_read
    have more_reads : more.Reads (more.tokens ++ next :: rest) (next :: rest) := ⟨rfl, more_ends⟩
    obtain ⟨rfl, same⟩ := more_reads.unique (show Ordered .moreArguments from trivial) others_read
    cases same
    exact other rfl

theorem continues_value : moreArguments.Continues [.comma] next .expression where
  viable := by
    rintro tokens ⟨value, rest, spelled⟩
    exact ⟨argument value lastArgument, rest, by simp [Derivation.tokens, spelled]⟩
  blocked := by
    intro tokens blocked derivation more rest reads
    cases derivation with
    | lastArgument => grind
    | argument value others =>
      obtain ⟨after, middle, same, value_read, -⟩ := reads_argument.mp reads
      cases same
      exact blocked value more middle value_read

theorem continues_moreArguments {value : Derivation .expression} (ends : value.EndsBefore next) :
    moreArguments.Continues (.comma :: value.tokens) next .moreArguments where
  viable := by
    rintro tokens ⟨more, rest, spelled⟩
    exact ⟨argument value more, rest, by simp [Derivation.tokens, spelled]⟩
  blocked := by
    intro tokens blocked derivation more rest reads
    cases derivation with
    | lastArgument => grind
    | argument value' others =>
      obtain ⟨after, middle, same, value_read, others_read⟩ := reads_argument.mp reads
      rw [List.cons_append, List.cons_append, List.append_assoc] at same
      cases same
      obtain ⟨-, rfl⟩ := ends.reads_eq expression_ordered value_read
      exact blocked others more rest others_read

/-! ### Layers -/

theorem continues_tighter (binary : rule.kind = .binary) :
    (layers (rule :: tighter)).Continues [] next (.layers tighter) where
  viable := by
    rintro tokens ⟨first, rest, spelled⟩
    exact ⟨chain binary first lastLink, rest, by simp [Derivation.tokens, spelled]⟩
  blocked := by
    intro tokens blocked derivation more rest reads
    cases derivation with
    | chain _ first links =>
      obtain ⟨middle, first_read, -⟩ := reads_chain.mp reads
      exact blocked first more middle first_read
    | operated unary => cases binary.symm.trans unary
    | bare unary => cases binary.symm.trans unary

theorem continues_links (binary : rule.kind = .binary) (ordered : tighter.Nodup)
    {first : Derivation (.layers tighter)} (ends : first.EndsBefore next) :
    (layers (rule :: tighter)).Continues first.tokens next (.links rule tighter) where
  viable := by
    rintro tokens ⟨links, rest, spelled⟩
    exact ⟨chain binary first links, rest, by simp [Derivation.tokens, spelled]⟩
  blocked := by
    intro tokens blocked derivation more rest reads
    cases derivation with
    | chain _ first' links =>
      obtain ⟨middle, first_read, links_read⟩ := reads_chain.mp reads
      rw [List.append_assoc] at first_read
      obtain ⟨-, rfl⟩ := ends.reads_eq (show Ordered (.layers tighter) from ordered) first_read
      exact blocked links more rest links_read
    | operated unary => cases binary.symm.trans unary
    | bare unary => cases binary.symm.trans unary

theorem continues_operand (unary : rule.kind = .unary) (new : rule ∉ tighter) {operator : Operator}
    (member : operator ∈ rule.operators) :
    (layers (rule :: tighter)).Continues [.operator operator] next (.layers (rule :: tighter)) where
  viable := by
    rintro tokens ⟨operand, rest, spelled⟩
    exact ⟨operated unary operator member operand, rest, by simp [Derivation.tokens, spelled]⟩
  blocked := by
    intro tokens blocked derivation more rest reads
    cases derivation with
    | chain binary => cases binary.symm.trans unary
    | operated _ operator' _ operand =>
      obtain ⟨after, same, operand_read⟩ := reads_operated.mp reads
      cases same
      exact blocked operand more rest operand_read
    | bare _ operand =>
      exact Token.not_begins_of_unary unary new member (reads_bare.mp reads).begins

theorem continues_bare (unary : rule.kind = .unary)
    (other : ∀ operator ∈ rule.operators, next ≠ .operator operator) :
    (layers (rule :: tighter)).Continues [] next (.layers tighter) where
  viable := by
    rintro tokens ⟨operand, rest, spelled⟩
    exact ⟨bare unary operand, rest, by simp [Derivation.tokens, spelled]⟩
  blocked := by
    intro tokens blocked derivation more rest reads
    cases derivation with
    | chain binary => cases binary.symm.trans unary
    | operated _ operator member operand =>
      obtain ⟨after, same, -⟩ := reads_operated.mp reads
      cases same
      exact other operator member rfl
    | bare _ operand => exact blocked operand more rest (reads_bare.mp reads)

theorem continues_linked {operator : Operator} (member : operator ∈ rule.operators) :
    (links rule tighter).Continues [.operator operator] next (.layers tighter) where
  viable := by
    rintro tokens ⟨operand, rest, spelled⟩
    exact ⟨link operator member operand lastLink, rest, by simp [Derivation.tokens, spelled]⟩
  blocked := by
    intro tokens blocked derivation more rest reads
    cases derivation with
    | lastLink => grind
    | link operator' member' operand others =>
      obtain ⟨after, middle, same, operand_read, -⟩ := reads_link.mp reads
      cases same
      exact blocked operand more middle operand_read

theorem continues_moreLinks {operator : Operator} (member : operator ∈ rule.operators)
    (ordered : tighter.Nodup) {operand : Derivation (.layers tighter)}
    (ends : operand.EndsBefore next) :
    (links rule tighter).Continues (.operator operator :: operand.tokens) next
      (.links rule tighter) where
  viable := by
    rintro tokens ⟨links, rest, spelled⟩
    exact ⟨link operator member operand links, rest, by simp [Derivation.tokens, spelled]⟩
  blocked := by
    intro tokens blocked derivation more rest reads
    cases derivation with
    | lastLink => grind
    | link operator' member' operand' others =>
      obtain ⟨after, middle, same, operand_read, others_read⟩ := reads_link.mp reads
      rw [List.cons_append, List.cons_append, List.append_assoc] at same
      cases same
      obtain ⟨-, rfl⟩ := ends.reads_eq (show Ordered (.layers tighter) from ordered) operand_read
      exact blocked others more rest others_read

end Phrase

end Formula
