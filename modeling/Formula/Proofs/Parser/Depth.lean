/-
**Where the parser goes too deep.**

The parser walks along the tokens of a derivation, each at its level (`Dialogue.Walks`): it passes
over them as long as they lie within the limit, and is refused at the first one that does not
(`Cursor.TooDeep`). The walk is put together from one step for each production; a level is opened
before the first token of what lies on it is passed over.

* `Derivation.walkable`: the parser walks along every derivation.
-/

import Formula.Proofs.Grammar.Levels
import Formula.Proofs.Parser.Alike
import Formula.Proofs.Parser.Completeness

namespace Formula

variable {α β γ : Type}

/-! ### Tokens that are too deep -/

/-- Holds of the refusal of a run of tokens, each with its level, for the first one that is deeper
than the limit. The tokens before it are passed over. -/
def Cursor.TooDeep (limit : Nat) (run : List (Token × Nat)) (cursor : Cursor)
    (error : ParseError) : Prop :=
  ∃ before next after stuck, run = before ++ (next, limit + 1) :: after ∧
    (∀ token ∈ before, token.2 ≤ limit) ∧ cursor.Passes (before.map Prod.fst) stuck ∧
    error = ⟨.nestingTooDeep limit, stuck.start⟩

namespace Cursor.TooDeep

variable {limit : Nat} {run more : List (Token × Nat)} {cursor middle : Cursor} {error : ParseError}

theorem append (deep : cursor.TooDeep limit run error) :
    cursor.TooDeep limit (run ++ more) error := by
  obtain ⟨before, next, after, stuck, rfl, within, passes, refused⟩ := deep
  exact ⟨before, next, after ++ more, stuck, by simp, within, passes, refused⟩

theorem prepend (within : ∀ token ∈ run, token.2 ≤ limit)
    (passes : cursor.Passes (run.map Prod.fst) middle) (deep : middle.TooDeep limit more error) :
    cursor.TooDeep limit (run ++ more) error := by
  obtain ⟨before, next, after, stuck, rfl, within', passes', refused⟩ := deep
  refine ⟨run ++ before, next, after, stuck, (List.append_assoc ..).symm,
    List.forall_mem_append.mpr ⟨within, within'⟩, ?_, refused⟩
  rw [List.map_append]
  exact passes.trans passes'

/-- A run with a token that is too deep does not lie within the limit. -/
theorem not_within (deep : cursor.TooDeep limit run error) :
    ¬ ∀ token ∈ run, token.2 ≤ limit := by
  obtain ⟨before, next, after, stuck, rfl, -⟩ := deep
  intro within
  exact Nat.not_succ_le_self limit
    (within (next, limit + 1) (List.mem_append_right _ List.mem_cons_self))

/-- The depth of the cursor has no part in where a token is. -/
theorem of_setDepth {depth : Nat}
    (deep : ({ cursor with depth } : Cursor).TooDeep limit run error) :
    cursor.TooDeep limit run error := by
  obtain ⟨before, next, after, stuck, split, within, passes, refused⟩ := deep
  exact ⟨before, next, after, { stuck with depth := cursor.depth }, split, within,
    passes.setDepth cursor.depth, refused⟩

end Cursor.TooDeep

/-! ### Walking along a run -/

/-- Holds of a dialogue that goes from one cursor along a run of tokens to another one, whatever is
answered, or is refused for the first of the tokens that is too deep. -/
def Dialogue.Walks (limit : Nat) (cursor : Cursor) (run : List (Token × Nat)) (last : Cursor)
    (dialogue : Dialogue α β) : Prop :=
  dialogue.Meets (fun _ _ => True)
    (fun _ reached => reached = last ∧ cursor.Passes (run.map Prod.fst) last ∧
      ∀ token ∈ run, token.2 ≤ limit)
    (fun error _ => cursor.TooDeep limit run error)

namespace Parser

variable {limit level : Nat} {cursor middle last after : Cursor} {run more : List (Token × Nat)}

theorem walks_bind {parser : Parser α γ} {next : γ → Parser α β}
    (first : (parser cursor).Walks limit cursor run middle)
    (second : ∀ value, (next value middle).Walks limit middle more last) :
    ((parser >>= next) cursor).Walks limit cursor (run ++ more) last := by
  rw [Dialogue.Walks, meets_bind]
  refine first.mono ?_ fun error _ deep => deep.append
  rintro value _ ⟨rfl, passes, within⟩
  refine (second value).mono ?_ fun error _ deep => deep.prepend within passes
  rintro result _ ⟨rfl, passes', within'⟩
  refine ⟨rfl, ?_, List.forall_mem_append.mpr ⟨within, within'⟩⟩
  rw [List.map_append]
  exact passes.trans passes'

/-- What passes over nothing can come last. -/
theorem walks_then {parser : Parser α γ} {next : γ → Parser α β}
    (first : (parser cursor).Walks limit cursor run last)
    (second : ∀ value, (next value last).Walks limit last [] last) :
    ((parser >>= next) cursor).Walks limit cursor run last :=
  List.append_nil run ▸ walks_bind first second

theorem walks_pure (result : β) :
    ((pure result : Parser α β) cursor).Walks limit cursor [] cursor :=
  ⟨rfl, cursor.passes_nil, List.forall_mem_nil _⟩

theorem walks_ask (request : Request α) : (ask request cursor).Walks limit cursor [] cursor :=
  ⟨trivial, fun _ => ⟨rfl, cursor.passes_nil, List.forall_mem_nil _⟩⟩

section Pass

variable {token : Token} (here : cursor.token = token) (next : cursor.next = .ok after)
  (fits : level ≤ limit)

include here next fits

theorem walks_advance :
    (advance cursor : Dialogue α Unit).Walks limit cursor [(token, level)] after := by
  rw [advance_of_ok next]
  exact ⟨rfl, Cursor.passes_singleton.mpr ⟨here, next⟩, List.forall_mem_singleton.mpr fits⟩

theorem walks_consume :
    (consume cursor : Dialogue α Unit).Walks limit cursor [(token, level)] after := by
  have passed : ({ cursor with token := .endOfInput } : Cursor).next = .ok after := next
  rw [consume, move_bind, advance_of_ok passed]
  exact ⟨rfl, Cursor.passes_singleton.mpr ⟨here, next⟩, List.forall_mem_singleton.mpr fits⟩

theorem walks_expect (expected : Expected) :
    (expect token expected cursor : Dialogue α Unit).Walks limit cursor [(token, level)] after := by
  rw [expect, cursor_bind, if_pos here]
  exact walks_advance here next fits

end Pass

end Parser

namespace Derivation

open Formula.Parser

/-- The parser of a part of the grammar walks along the tokens of the derivation, where that is at
some level and the limit leaves room for all that are deeper up to it. -/
@[simp]
def Walked (α : Type) (limit level : Nat) (cursor last : Cursor) :
    {phrase : Phrase} → Derivation phrase → Prop
  | .layers rules, derivation =>
    (layers (nested limit (limit - level)) rules cursor : Dialogue α α).Walks limit cursor
      (derivation.leveled level) last
  | .links rule tighter, derivation =>
    ∀ (bound : List Scanned) (before : List (String × α)), cursor.remaining ≤ bound.length →
      (Parser.chain rule (layers (nested limit (limit - level)) tighter) bound before cursor).Walks
        limit cursor (derivation.leveled level) last
  | .names, derivation =>
    ∀ (bound : List Scanned) (before : List String), cursor.remaining ≤ bound.length →
      (Parser.names bound before cursor : Dialogue α _).Walks limit cursor
        (derivation.leveled level) last
  | .call, derivation =>
    (arguments? (nested limit (limit - level) Rule.precedence) cursor : Dialogue α _).Walks limit
      cursor (derivation.leveled level) last
  | .arguments, derivation =>
    (Parser.arguments (nested limit (limit - level) Rule.precedence) cursor : Dialogue α _).Walks
      limit cursor (derivation.leveled level) last
  | .moreArguments, derivation =>
    ∀ (bound : List Scanned) (before : List α), cursor.remaining ≤ bound.length →
      (moreArguments (nested limit (limit - level) Rule.precedence) bound before cursor).Walks
        limit cursor (derivation.leveled level) last

/-- Wherever its tokens stand, at a level within the limit, the parser walks along them. -/
def Walkable (α : Type) (limit : Nat) {phrase : Phrase} (derivation : Derivation phrase) : Prop :=
  ∀ ⦃level : Nat⦄ ⦃cursor last : Cursor⦄, cursor.Placed → cursor.Passes derivation.tokens last →
    derivation.EndsBefore last.token → level ≤ limit →
      derivation.Walked α limit level cursor last

variable {limit : Nat}

/-- One level deeper the first token is too deep, or the parser walks along the tokens as here. -/
theorem Walkable.nested {level : Nat} {rules : List Rule} {derivation : Derivation (.layers rules)}
    (walkable : derivation.Walkable α limit) {cursor last : Cursor} (placed : cursor.Placed)
    (passes : cursor.Passes derivation.tokens last) (ends : derivation.EndsBefore last.token)
    (fits : level ≤ limit) :
    (Parser.nested limit (limit - level) rules cursor : Dialogue α α).Walks limit cursor
      (derivation.leveled (level + 1)) last := by
  cases left : limit - level with
  | zero =>
    have here : level = limit := by omega
    obtain ⟨token, rest, head⟩ := derivation.leveled_head (level + 1)
    exact ⟨[], token, rest, cursor, by rw [head, here]; rfl, List.forall_mem_nil _,
      cursor.passes_nil, rfl⟩
  | succ room =>
    have inside : level + 1 ≤ limit := by omega
    have below : limit - (level + 1) = room := by omega
    have deeper := walkable (placed.setDepth (cursor.depth + 1))
      (passes.setDepth (cursor.depth + 1)) ends inside
    have back : ({ last with depth := cursor.depth + 1 - 1 } : Cursor) = last := by
      rw [Nat.add_sub_cancel, ← passes.depth]
    rw [Walked, below] at deeper
    rw [Parser.nested, Dialogue.Walks]
    dsimp only
    rw [move_bind, meets_bind]
    refine deeper.mono ?_ fun error _ deep => deep.of_setDepth
    rintro value _ ⟨rfl, -, within⟩
    exact ⟨back, (derivation.leveled_tokens (level + 1)).symm ▸ passes, within⟩

/-! ### Operands -/

theorem walkable_number (lexeme : String) : (number lexeme).Walkable α limit := by
  intro level cursor last placed passes ends fits
  obtain ⟨here, next⟩ := Cursor.passes_singleton.mp passes
  show (atom _ cursor).Walks limit cursor _ last
  rw [atom, cursor_bind]
  simp only [here]
  refine walks_then (walks_consume here next fits) fun _ => ?_
  exact walks_bind (walks_ask _) fun _ => walks_ask _

theorem walkable_text (content : String) : (text content).Walkable α limit := by
  intro level cursor last placed passes ends fits
  obtain ⟨here, next⟩ := Cursor.passes_singleton.mp passes
  show (atom _ cursor).Walks limit cursor _ last
  rw [atom, cursor_bind]
  simp only [here]
  refine walks_then (walks_consume here next fits) fun _ => ?_
  exact walks_bind (walks_ask _) fun _ => walks_ask _

theorem walkable_reference (first : String) {names : Derivation .names} {call : Derivation .call}
    (names_walk : names.Walkable α limit) (call_walk : call.Walkable α limit) :
    (reference first names call).Walkable α limit := by
  intro level cursor last placed passes ends fits
  obtain ⟨here, after, next, rest⟩ := passes
  obtain ⟨middle, names_pass, call_pass⟩ := Cursor.passes_append.mp rest
  have after_placed := placed.next next
  have names_read := names_walk after_placed names_pass (call_pass.head ▸ ends.1) fits
  have call_read := call_walk (after_placed.passes names_pass) call_pass ends.2 fits
  show (atom _ cursor).Walks limit cursor _ last
  rw [atom, cursor_bind]
  simp only [here]
  refine walks_bind (walks_consume here next fits) fun _ => ?_
  rw [ahead_bind]
  refine walks_bind (names_read _ [first] after.remaining_le) fun _ => ?_
  exact walks_bind (walks_ask _) fun _ => walks_then call_read fun _ => walks_ask _

theorem walkable_group {inside : Derivation .expression}
    (inside_walk : inside.Walkable α limit) : (group inside).Walkable α limit := by
  intro level cursor last placed passes ends fits
  obtain ⟨here, after, next, rest⟩ := passes
  obtain ⟨middle, inside_pass, close_pass⟩ := Cursor.passes_append.mp rest
  obtain ⟨close, close_next⟩ := Cursor.passes_singleton.mp close_pass
  have inside_read := inside_walk.nested (placed.next next) inside_pass (close ▸ ends) fits
  show (atom _ cursor).Walks limit cursor _ last
  rw [atom, cursor_bind]
  simp only [here]
  refine walks_bind (walks_consume here next fits) fun _ => walks_bind inside_read fun _ => ?_
  exact walks_then (walks_expect close close_next fits _) fun _ => walks_ask _


/-! ### Names and arguments -/

theorem walkable_lastName : lastName.Walkable α limit := by
  intro level cursor last placed passes ends fits bound before enough
  cases show cursor = last from passes
  rw [names_of_other ends]
  exact walks_pure _

theorem walkable_name (letters : String) {names : Derivation .names}
    (names_walk : names.Walkable α limit) : (name letters names).Walkable α limit := by
  intro level cursor last placed passes ends fits bound before enough
  obtain ⟨dot, middle, dot_next, here, after, next, rest⟩ := passes
  have middle_placed := placed.next dot_next
  have fewer := placed.remaining_lt dot_next (by simp [dot])
  have fewer' := middle_placed.remaining_lt next (by simp [here])
  have names_read := names_walk (middle_placed.next next) rest ends fits
  obtain ⟨item, bound, rfl⟩ := exists_turn (by simp [dot]) enough
  rw [List.length_cons] at enough
  rw [Parser.names, cursor_bind, if_pos dot]
  refine walks_bind (walks_advance dot dot_next fits) fun _ => ?_
  rw [cursor_bind]
  simp only [here]
  exact walks_bind (walks_consume here next fits) fun _ => names_read bound _ (by omega)

theorem walkable_uncalled : uncalled.Walkable α limit := by
  intro level cursor last placed passes ends fits
  cases show cursor = last from passes
  show (arguments? _ cursor).Walks limit cursor _ cursor
  rw [arguments?, cursor_bind, if_neg ends]
  exact walks_pure _

theorem walkable_called {arguments : Derivation .arguments}
    (arguments_walk : arguments.Walkable α limit) : (called arguments).Walkable α limit := by
  intro level cursor last placed passes ends fits
  obtain ⟨here, after, next, rest⟩ := passes
  have arguments_read := arguments_walk (placed.next next) rest ends fits
  show (arguments? _ cursor).Walks limit cursor _ last
  rw [arguments?, cursor_bind, if_pos here]
  refine walks_bind (walks_advance here next fits) fun _ => ?_
  exact walks_then arguments_read fun _ => walks_pure _

theorem walkable_noArguments : noArguments.Walkable α limit := by
  intro level cursor last placed passes ends fits
  obtain ⟨here, next⟩ := Cursor.passes_singleton.mp passes
  show (Parser.arguments _ cursor).Walks limit cursor _ last
  rw [Parser.arguments, cursor_bind]
  dsimp only
  rw [if_pos here]
  refine walks_bind (walks_pure _) fun _ => ?_
  exact walks_then (walks_expect here next fits _) fun _ => walks_pure _

theorem walkable_someArguments {first : Derivation .expression} {more : Derivation .moreArguments}
    (first_walk : first.Walkable α limit) (more_walk : more.Walkable α limit) :
    (someArguments first more).Walkable α limit := by
  intro level cursor last placed passes ends fits
  obtain ⟨middle, first_pass, rest⟩ := Cursor.passes_append.mp passes
  obtain ⟨after, more_pass, close_pass⟩ := Cursor.passes_append.mp rest
  obtain ⟨close, close_next⟩ := Cursor.passes_singleton.mp close_pass
  have not_closed : cursor.token ≠ .closeParen := by
    intro here
    have begins := first.begins_at first_pass
    rw [here] at begins
    exact begins
  have first_ends : first.EndsBefore middle.token := by
    rw [more_pass.head, close]
    exact ends.1
  have first_read := first_walk.nested placed first_pass first_ends fits
  have more_read := more_walk (placed.passes first_pass) more_pass (close ▸ ends.2) fits
  show (Parser.arguments _ cursor).Walks limit cursor _ last
  rw [Parser.arguments, cursor_bind]
  dsimp only
  rw [if_neg not_closed]
  refine walks_bind first_read fun value => ?_
  rw [ahead_bind]
  refine walks_bind (more_read _ _ middle.remaining_le) fun _ => ?_
  exact walks_then (walks_expect close close_next fits _) fun _ => walks_pure _

theorem walkable_lastArgument : lastArgument.Walkable α limit := by
  intro level cursor last placed passes ends fits bound before enough
  cases show cursor = last from passes
  rw [moreArguments_of_other ends]
  exact walks_pure _

theorem walkable_argument {value : Derivation .expression} {more : Derivation .moreArguments}
    (value_walk : value.Walkable α limit) (more_walk : more.Walkable α limit) :
    (argument value more).Walkable α limit := by
  intro level cursor last placed passes ends fits bound before enough
  obtain ⟨here, after, next, rest⟩ := passes
  obtain ⟨middle, value_pass, more_pass⟩ := Cursor.passes_append.mp rest
  have after_placed := placed.next next
  have fewer := placed.remaining_lt next (by simp [here])
  have fewer' := after_placed.remaining_le_of_passes value_pass
  have value_read := value_walk.nested after_placed value_pass (more_pass.head ▸ ends.1) fits
  have more_read := more_walk (after_placed.passes value_pass) more_pass ends.2 fits
  obtain ⟨item, bound, rfl⟩ := exists_turn (by simp [here]) enough
  rw [List.length_cons] at enough
  rw [moreArguments, cursor_bind, if_pos here]
  refine walks_bind (walks_advance here next fits) fun _ => ?_
  exact walks_bind value_read fun _ => more_read bound _ (by omega)

/-! ### Layers -/

section Layers

variable {rule : Rule} {tighter : List Rule}

theorem walkable_chain (binary : rule.kind = .binary) {first : Derivation (.layers tighter)}
    {links : Derivation (.links rule tighter)} (first_walk : first.Walkable α limit)
    (links_walk : links.Walkable α limit) : (chain binary first links).Walkable α limit := by
  intro level cursor last placed passes ends fits
  obtain ⟨middle, first_pass, links_pass⟩ := Cursor.passes_append.mp passes
  have first_read := first_walk placed first_pass (links_pass.head ▸ ends.1) fits
  have links_read := links_walk (placed.passes first_pass) links_pass ends.2 fits
  show (layers _ _ cursor).Walks limit cursor _ last
  rw [layers]
  simp only [binary]
  refine walks_bind first_read fun _ => ?_
  rw [ahead_bind]
  exact walks_then (links_read _ [] middle.remaining_le) fun _ => walks_ask _

theorem walkable_operated (unary : rule.kind = .unary) {operator : Operator}
    (member : operator ∈ rule.operators) {operand : Derivation (.layers (rule :: tighter))}
    (operand_walk : operand.Walkable α limit) :
    (operated unary operator member operand).Walkable α limit := by
  intro level cursor last placed passes ends fits
  obtain ⟨here, after, next, operand_pass⟩ := passes
  have operand_read := operand_walk.nested (placed.next next) operand_pass ends fits
  show (layers _ _ cursor).Walks limit cursor _ last
  rw [layers]
  simp only [unary]
  rw [operator?_bind member here]
  refine walks_bind (walks_advance here next fits) fun _ => ?_
  exact walks_then operand_read fun _ => walks_ask _

theorem walkable_bare (unary : rule.kind = .unary) (new : rule ∉ tighter)
    {operand : Derivation (.layers tighter)} (operand_walk : operand.Walkable α limit) :
    (bare unary operand).Walkable α limit := by
  intro level cursor last placed passes ends fits
  have operand_read := operand_walk placed passes ends fits
  have other : ∀ operator ∈ rule.operators, cursor.token ≠ .operator operator :=
    fun operator member here =>
      Token.not_begins_of_unary unary new member (here ▸ operand.begins_at passes)
  show (layers _ _ cursor).Walks limit cursor _ last
  rw [layers]
  simp only [unary]
  show (Dialogue.andThen (operator? rule cursor) _).Walks limit cursor _ last
  rw [operator?_of_other other]
  exact walks_then operand_read fun _ => walks_ask _

theorem walkable_lastLink : (@lastLink rule tighter).Walkable α limit := by
  intro level cursor last placed passes ends fits bound before enough
  cases show cursor = last from passes
  rw [chain_of_other (operator?_of_other ends)]
  exact walks_pure _

theorem walkable_link {operator : Operator} (member : operator ∈ rule.operators)
    {operand : Derivation (.layers tighter)} {links : Derivation (.links rule tighter)}
    (operand_walk : operand.Walkable α limit) (links_walk : links.Walkable α limit) :
    (link operator member operand links).Walkable α limit := by
  intro level cursor last placed passes ends fits bound before enough
  obtain ⟨here, after, next, rest⟩ := passes
  obtain ⟨middle, operand_pass, links_pass⟩ := Cursor.passes_append.mp rest
  have after_placed := placed.next next
  have fewer := placed.remaining_lt next (by simp [here])
  have fewer' := after_placed.remaining_le_of_passes operand_pass
  have operand_read := operand_walk after_placed operand_pass (links_pass.head ▸ ends.1) fits
  have links_read := links_walk (after_placed.passes operand_pass) links_pass ends.2 fits
  obtain ⟨item, bound, rfl⟩ := exists_turn (by simp [here]) enough
  rw [List.length_cons] at enough
  rw [Parser.chain, operator?_bind member here]
  refine walks_bind (walks_advance here next fits) fun _ => ?_
  exact walks_bind operand_read fun _ => links_read bound _ (by omega)

end Layers

/-- **The parser walks along every derivation**, up to the first token that is too deep. -/
theorem walkable (α : Type) (limit : Nat) {phrase : Phrase} (derivation : Derivation phrase)
    (ordered : phrase.Ordered) : derivation.Walkable α limit := by
  induction derivation with
  | number lexeme => exact walkable_number lexeme
  | text content => exact walkable_text content
  | reference first names call names_step call_step =>
    exact walkable_reference first (names_step trivial) (call_step trivial)
  | group inside step => exact walkable_group (step Phrase.expression_ordered)
  | chain binary first links first_step links_step =>
    exact walkable_chain binary (first_step (List.nodup_cons.mp ordered).2)
      (links_step ⟨binary, ordered⟩)
  | operated unary operator member operand step =>
    exact walkable_operated unary member (step ordered)
  | bare unary operand step =>
    obtain ⟨new, tighter_ordered⟩ := List.nodup_cons.mp ordered
    exact walkable_bare unary new (step tighter_ordered)
  | lastLink => exact walkable_lastLink
  | link operator member operand links operand_step links_step =>
    exact walkable_link member (operand_step (List.nodup_cons.mp ordered.2).2) (links_step ordered)
  | lastName => exact walkable_lastName
  | name letters names step => exact walkable_name letters (step trivial)
  | uncalled => exact walkable_uncalled
  | called arguments step => exact walkable_called (step trivial)
  | noArguments => exact walkable_noArguments
  | someArguments first more first_step more_step =>
    exact walkable_someArguments (first_step Phrase.expression_ordered) (more_step trivial)
  | lastArgument => exact walkable_lastArgument
  | argument value more value_step more_step =>
    exact walkable_argument (value_step Phrase.expression_ordered) (more_step trivial)

end Derivation

end Formula
