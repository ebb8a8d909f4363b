/-
**What is derived is read.**

Where the tokens of a derivation stand, and the token after them ends it, the parser makes the
requests of the derivation, in order, and passes over its tokens (`Derivation.Followed`). The room
that is left has to be enough for the levels of the derivation. The loops of the parser are bounded
by the readings to come; each turn passes over one at least, so they are never cut short.

* `Derivation.follows`: the parser follows every derivation.
-/

import Formula.Proofs.Grammar.Reading
import Formula.Proofs.Parser.Steps

namespace Formula

namespace Derivation

variable {σ ε α : Type}

open Formula.Parser

/-- Holding the parser of a part of the grammar makes the requests of the derivation and leads from
one cursor to the other. The loops go on from what they have read before. -/
@[simp]
def Followed (handler : Handler σ ε α) (limit room : Nat) (cursor last : Cursor) :
    {phrase : Phrase} → Derivation phrase → Prop
  | .layers rules, derivation =>
    (layers (nested limit room) rules cursor).hold handler =
      do return (← derivation.perform handler.answer, last)
  | .links rule tighter, derivation =>
    ∀ (bound : List Scanned) (before : List (String × α)), cursor.remaining ≤ bound.length →
      (Parser.chain rule (layers (nested limit room) tighter) bound before cursor).hold handler =
        do
          let rest : List (String × α) ← derivation.perform handler.answer
          return (before.reverse ++ rest, last)
  | .names, derivation =>
    ∀ (bound : List Scanned) (before : List String), cursor.remaining ≤ bound.length →
      (Parser.names bound before cursor).hold handler =
        do
          let rest : List String ← derivation.perform handler.answer
          return (before.reverse ++ rest, last)
  | .call, derivation =>
    (arguments? (nested limit room Rule.precedence) cursor).hold handler =
      do return (← derivation.perform handler.answer, last)
  | .arguments, derivation =>
    (Parser.arguments (nested limit room Rule.precedence) cursor).hold handler =
      do return (← derivation.perform handler.answer, last)
  | .moreArguments, derivation =>
    ∀ (bound : List Scanned) (before : List α), cursor.remaining ≤ bound.length →
      (moreArguments (nested limit room Rule.precedence) bound before cursor).hold handler =
        do
          let rest : List α ← derivation.perform handler.answer
          return (before.reverse ++ rest, last)

/-- Wherever its tokens are passed over, with room for its levels, the derivation is followed. -/
def Follows (handler : Handler σ ε α) (limit : Nat) {phrase : Phrase}
    (derivation : Derivation phrase) : Prop :=
  ∀ ⦃room : Nat⦄ ⦃cursor last : Cursor⦄, cursor.Placed → cursor.Passes derivation.tokens last →
    derivation.EndsBefore last.token → derivation.level ≤ room →
      derivation.Followed handler limit room cursor last

variable {handler : Handler σ ε α} {limit : Nat}

/-- Where the tokens of an expression stand, a token stands that it can begin with. -/
theorem begins_at {rules : List Rule} (derivation : Derivation (.layers rules))
    {cursor last : Cursor} (passes : cursor.Passes derivation.tokens last) :
    cursor.token.Begins rules := by
  obtain ⟨token, rest, spelled, begins⟩ := derivation.begins
  rwa [passes.head, spelled, List.headD_cons]

/-- One level deeper a derivation is followed as it is here, if there is room for one level more. -/
theorem Follows.nested {room : Nat} {rules : List Rule} {derivation : Derivation (.layers rules)}
    (follows : derivation.Follows handler limit) {cursor last : Cursor} (placed : cursor.Placed)
    (passes : cursor.Passes derivation.tokens last) (ends : derivation.EndsBefore last.token)
    (level : derivation.level + 1 ≤ room) :
    (Parser.nested limit room rules cursor).hold handler =
      do return (← derivation.perform handler.answer, last) := by
  obtain ⟨room, rfl⟩ : ∃ below, room = below + 1 := ⟨room - 1, by omega⟩
  have deeper := follows (placed.setDepth (cursor.depth + 1))
    (passes.setDepth (cursor.depth + 1)) ends (Nat.le_of_succ_le_succ level)
  have back : ({ last with depth := cursor.depth + 1 - 1 } : Cursor) = last := by
    rw [Nat.add_sub_cancel, ← passes.depth]
  rw [Followed] at deeper
  simp only [Parser.nested, hold_bind, hold_move, pure_bind, deeper, hold_pure, bind_assoc, back]

/-! ### Operands -/

theorem follows_number (lexeme : String) : (number lexeme).Follows handler limit := by
  intro room cursor last placed passes ends level
  obtain ⟨here, next⟩ := Cursor.passes_singleton.mp passes
  show (atom _ cursor).hold handler = _
  simp only [atom, hold_bind, hold_cursor, pure_bind, here, hold_consume handler next, ask,
    Dialogue.hold, perform, bind_assoc]

theorem follows_text (content : String) : (text content).Follows handler limit := by
  intro room cursor last placed passes ends level
  obtain ⟨here, next⟩ := Cursor.passes_singleton.mp passes
  show (atom _ cursor).hold handler = _
  simp only [atom, hold_bind, hold_cursor, pure_bind, here, hold_consume handler next, ask,
    Dialogue.hold, perform, bind_assoc]

theorem follows_reference (first : String) {names : Derivation .names} {call : Derivation .call}
    (names_follows : names.Follows handler limit) (call_follows : call.Follows handler limit) :
    (reference first names call).Follows handler limit := by
  intro room cursor last placed passes ends level
  obtain ⟨here, after, next, rest⟩ := passes
  obtain ⟨middle, names_pass, call_pass⟩ := Cursor.passes_append.mp rest
  have after_placed := placed.next next
  have names_read := names_follows after_placed names_pass (call_pass.head ▸ ends.1)
    (names.level_names ▸ Nat.zero_le room)
  have call_read := call_follows (after_placed.passes names_pass) call_pass ends.2 level
  simp only [Followed] at names_read call_read
  show (atom _ cursor).hold handler = _
  simp only [atom, hold_bind, hold_cursor, pure_bind, here, hold_consume handler next, hold_ahead,
    names_read _ [first] after.remaining_le, ask, Dialogue.hold, call_read, perform, bind_assoc,
    List.reverse_singleton, List.singleton_append]

theorem follows_group {inside : Derivation .expression}
    (inside_follows : inside.Follows handler limit) : (group inside).Follows handler limit := by
  intro room cursor last placed passes ends level
  obtain ⟨here, after, next, rest⟩ := passes
  obtain ⟨middle, inside_pass, close_pass⟩ := Cursor.passes_append.mp rest
  obtain ⟨close, close_next⟩ := Cursor.passes_singleton.mp close_pass
  have inside_read := inside_follows.nested (placed.next next) inside_pass (close ▸ ends) level
  show (atom _ cursor).hold handler = _
  simp only [atom, hold_bind, hold_cursor, pure_bind, here, hold_consume handler next, inside_read,
    hold_expect handler close close_next, ask, Dialogue.hold, perform, bind_assoc]

/-! ### Names and arguments -/

theorem follows_lastName : lastName.Follows handler limit := by
  intro room cursor last placed passes ends level bound before enough
  cases show cursor = last from passes
  cases bound with
  | nil => simp only [Parser.names, hold_pure, perform, pure_bind, List.append_nil]
  | cons item bound =>
    simp only [Parser.names, hold_bind, hold_cursor, pure_bind, if_neg ends, hold_pure, perform,
      List.append_nil]

theorem follows_name (letters : String) {names : Derivation .names}
    (names_follows : names.Follows handler limit) : (name letters names).Follows handler limit := by
  intro room cursor last placed passes ends level bound before enough
  obtain ⟨dot, middle, dot_next, here, after, next, rest⟩ := passes
  have middle_placed := placed.next dot_next
  have fewer := placed.remaining_lt dot_next (by simp [dot])
  have fewer' := middle_placed.remaining_lt next (by simp [here])
  have names_read := names_follows (middle_placed.next next) rest ends
    (names.level_names ▸ Nat.zero_le room)
  cases bound with
  | nil => exact absurd enough (by rw [List.length_nil]; omega)
  | cons item bound =>
    rw [List.length_cons] at enough
    simp only [Followed] at names_read
    simp only [Parser.names, hold_bind, hold_cursor, pure_bind, dot, if_true,
      hold_advance handler dot_next, here, hold_consume handler next,
      names_read bound _ (by omega), perform, bind_assoc, List.reverse_cons, List.append_assoc,
      List.singleton_append]

theorem follows_uncalled : uncalled.Follows handler limit := by
  intro room cursor last placed passes ends level
  cases show cursor = last from passes
  show (arguments? _ cursor).hold handler = _
  simp only [arguments?, hold_bind, hold_cursor, pure_bind, if_neg ends, hold_pure, perform]

theorem follows_called {arguments : Derivation .arguments}
    (arguments_follows : arguments.Follows handler limit) :
    (called arguments).Follows handler limit := by
  intro room cursor last placed passes ends level
  obtain ⟨here, after, next, rest⟩ := passes
  have arguments_read := arguments_follows (placed.next next) rest ends level
  rw [Followed] at arguments_read
  show (arguments? _ cursor).hold handler = _
  simp only [arguments?, hold_bind, hold_cursor, pure_bind, here, if_true,
    hold_advance handler next, arguments_read, hold_pure, perform, bind_assoc]

theorem follows_noArguments : noArguments.Follows handler limit := by
  intro room cursor last placed passes ends level
  obtain ⟨here, next⟩ := Cursor.passes_singleton.mp passes
  show (Parser.arguments _ cursor).hold handler = _
  simp only [Parser.arguments, hold_bind, hold_cursor, pure_bind, here, if_true, hold_pure,
    hold_expect handler here next, perform]

theorem follows_someArguments {first : Derivation .expression} {more : Derivation .moreArguments}
    (first_follows : first.Follows handler limit) (more_follows : more.Follows handler limit) :
    (someArguments first more).Follows handler limit := by
  intro room cursor last placed passes ends level
  obtain ⟨middle, first_pass, rest⟩ := Cursor.passes_append.mp passes
  obtain ⟨after, more_pass, close_pass⟩ := Cursor.passes_append.mp rest
  obtain ⟨close, close_next⟩ := Cursor.passes_singleton.mp close_pass
  obtain ⟨first_level, more_level⟩ := Nat.max_le.mp level
  have not_closed : cursor.token ≠ .closeParen := by
    intro here
    have begins := first.begins_at first_pass
    rw [here] at begins
    exact begins
  have first_ends : first.EndsBefore middle.token := by
    rw [more_pass.head, close]
    exact ends.1
  have first_read := first_follows.nested placed first_pass first_ends first_level
  have more_read := more_follows (placed.passes first_pass) more_pass (close ▸ ends.2) more_level
  simp only [Followed] at more_read
  show (Parser.arguments _ cursor).hold handler = _
  simp only [Parser.arguments, hold_bind, hold_cursor, pure_bind, if_neg not_closed, first_read,
    hold_ahead, more_read _ _ middle.remaining_le, hold_expect handler close close_next, hold_pure,
    perform, bind_assoc, List.reverse_singleton, List.singleton_append]

theorem follows_lastArgument : lastArgument.Follows handler limit := by
  intro room cursor last placed passes ends level bound before enough
  cases show cursor = last from passes
  cases bound with
  | nil => simp only [moreArguments, hold_pure, perform, pure_bind, List.append_nil]
  | cons item bound =>
    simp only [moreArguments, hold_bind, hold_cursor, pure_bind, if_neg ends, hold_pure, perform,
      List.append_nil]

theorem follows_argument {value : Derivation .expression} {more : Derivation .moreArguments}
    (value_follows : value.Follows handler limit) (more_follows : more.Follows handler limit) :
    (argument value more).Follows handler limit := by
  intro room cursor last placed passes ends level bound before enough
  obtain ⟨here, after, next, rest⟩ := passes
  obtain ⟨middle, value_pass, more_pass⟩ := Cursor.passes_append.mp rest
  obtain ⟨value_level, more_level⟩ := Nat.max_le.mp level
  have after_placed := placed.next next
  have fewer := placed.remaining_lt next (by simp [here])
  have fewer' := after_placed.remaining_le_of_passes value_pass
  have value_read := value_follows.nested after_placed value_pass (more_pass.head ▸ ends.1)
    value_level
  have more_read := more_follows (after_placed.passes value_pass) more_pass ends.2 more_level
  cases bound with
  | nil => exact absurd enough (by rw [List.length_nil]; omega)
  | cons item bound =>
    rw [List.length_cons] at enough
    simp only [Followed] at more_read
    simp only [moreArguments, hold_bind, hold_cursor, pure_bind, here, if_true,
      hold_advance handler next, value_read, more_read bound _ (by omega), perform, bind_assoc,
      List.reverse_cons, List.append_assoc, List.singleton_append]

/-! ### Layers -/

section Layers

variable {rule : Rule} {tighter : List Rule}

theorem follows_chain (binary : rule.kind = .binary) {first : Derivation (.layers tighter)}
    {links : Derivation (.links rule tighter)} (first_follows : first.Follows handler limit)
    (links_follows : links.Follows handler limit) :
    (chain binary first links).Follows handler limit := by
  intro room cursor last placed passes ends level
  obtain ⟨middle, first_pass, links_pass⟩ := Cursor.passes_append.mp passes
  obtain ⟨first_level, links_level⟩ := Nat.max_le.mp level
  have first_read := first_follows placed first_pass (links_pass.head ▸ ends.1) first_level
  have links_read := links_follows (placed.passes first_pass) links_pass ends.2 links_level
  simp only [Followed] at first_read links_read
  show (layers _ _ cursor).hold handler = _
  simp only [layers, binary, hold_bind, first_read, hold_ahead, pure_bind,
    links_read _ [] middle.remaining_le, List.reverse_nil, List.nil_append, ask, Dialogue.hold,
    perform, bind_assoc]

theorem follows_operated (unary : rule.kind = .unary) {operator : Operator}
    (member : operator ∈ rule.operators) {operand : Derivation (.layers (rule :: tighter))}
    (operand_follows : operand.Follows handler limit) :
    (operated unary operator member operand).Follows handler limit := by
  intro room cursor last placed passes ends level
  obtain ⟨here, after, next, operand_pass⟩ := passes
  have operand_read := operand_follows.nested (placed.next next) operand_pass ends level
  show (layers _ _ cursor).hold handler = _
  simp only [layers, unary, hold_bind, hold_operator? handler member here next, pure_bind,
    operand_read, ask, Dialogue.hold, perform, bind_assoc]

theorem follows_bare (unary : rule.kind = .unary) (new : rule ∉ tighter)
    {operand : Derivation (.layers tighter)} (operand_follows : operand.Follows handler limit) :
    (bare unary operand).Follows handler limit := by
  intro room cursor last placed passes ends level
  have operand_read := operand_follows placed passes ends level
  have other : ∀ operator ∈ rule.operators, cursor.token ≠ .operator operator :=
    fun operator member here =>
      Token.not_begins_of_unary unary new member (here ▸ operand.begins_at passes)
  rw [Followed] at operand_read
  show (layers _ _ cursor).hold handler = _
  simp only [layers, unary, hold_bind, hold_operator?_none handler other, pure_bind, operand_read,
    ask, Dialogue.hold, perform, bind_assoc]

theorem follows_lastLink : (@lastLink rule tighter).Follows handler limit := by
  intro room cursor last placed passes ends level bound before enough
  cases show cursor = last from passes
  cases bound with
  | nil => simp only [Parser.chain, hold_pure, perform, pure_bind, List.append_nil]
  | cons item bound =>
    simp only [Parser.chain, hold_bind, hold_operator?_none handler ends, pure_bind, hold_pure,
      perform, List.append_nil]

theorem follows_link {operator : Operator} (member : operator ∈ rule.operators)
    {operand : Derivation (.layers tighter)} {links : Derivation (.links rule tighter)}
    (operand_follows : operand.Follows handler limit)
    (links_follows : links.Follows handler limit) :
    (link operator member operand links).Follows handler limit := by
  intro room cursor last placed passes ends level bound before enough
  obtain ⟨here, after, next, rest⟩ := passes
  obtain ⟨middle, operand_pass, links_pass⟩ := Cursor.passes_append.mp rest
  obtain ⟨operand_level, links_level⟩ := Nat.max_le.mp level
  have after_placed := placed.next next
  have fewer := placed.remaining_lt next (by simp [here])
  have fewer' := after_placed.remaining_le_of_passes operand_pass
  have operand_read := operand_follows after_placed operand_pass (links_pass.head ▸ ends.1)
    operand_level
  have links_read := links_follows (after_placed.passes operand_pass) links_pass ends.2 links_level
  cases bound with
  | nil => exact absurd enough (by rw [List.length_nil]; omega)
  | cons item bound =>
    rw [List.length_cons] at enough
    simp only [Followed] at operand_read links_read
    simp only [Parser.chain, hold_bind, hold_operator? handler member here next, pure_bind,
      operand_read, links_read bound _ (by omega), perform, bind_assoc, List.reverse_cons,
      List.append_assoc, List.singleton_append]

end Layers

/-- **The parser follows every derivation.** -/
theorem follows (handler : Handler σ ε α) (limit : Nat) {phrase : Phrase}
    (derivation : Derivation phrase) (ordered : phrase.Ordered) :
    derivation.Follows handler limit := by
  induction derivation with
  | number lexeme => exact follows_number lexeme
  | text content => exact follows_text content
  | reference first names call names_step call_step =>
    exact follows_reference first (names_step trivial) (call_step trivial)
  | group inside step => exact follows_group (step Phrase.expression_ordered)
  | chain binary first links first_step links_step =>
    exact follows_chain binary (first_step (List.nodup_cons.mp ordered).2)
      (links_step ⟨binary, ordered⟩)
  | operated unary operator member operand step =>
    exact follows_operated unary member (step ordered)
  | bare unary operand step =>
    obtain ⟨new, tighter_ordered⟩ := List.nodup_cons.mp ordered
    exact follows_bare unary new (step tighter_ordered)
  | lastLink => exact follows_lastLink
  | link operator member operand links operand_step links_step =>
    exact follows_link member (operand_step (List.nodup_cons.mp ordered.2).2) (links_step ordered)
  | lastName => exact follows_lastName
  | name letters names step => exact follows_name letters (step trivial)
  | uncalled => exact follows_uncalled
  | called arguments step => exact follows_called (step trivial)
  | noArguments => exact follows_noArguments
  | someArguments first more first_step more_step =>
    exact follows_someArguments (first_step Phrase.expression_ordered) (more_step trivial)
  | lastArgument => exact follows_lastArgument
  | argument value more value_step more_step =>
    exact follows_argument (value_step Phrase.expression_ordered) (more_step trivial)

end Derivation

end Formula
