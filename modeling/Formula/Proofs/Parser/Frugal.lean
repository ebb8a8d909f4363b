/-
**What a parse spends.**

Every token is worth eleven requests: two for the operand that it begins, and one for each of the
nine layers that begin with it. A parse spends nothing else (`Parser.Pays`). A part of it that
begins at a token gets its eleven when it passes over the token, and leaves those of the token that
it ends at untouched. The parts that pass over more tokens than they have to pay for leave something
over, and what an operand leaves over pays for the layers around it.

The readings only get fewer from request to request, and each is taken from the tape once.

* `Dialogue.Frugal`: what holds of the readings and the funds on every path through a dialogue. It
  goes through `do` (`Parser.frugal_bind`).
* `Dialogue.Frugal.run_tapes`: the readings that a run leaves get fewer.
* `Dialogue.Frugal.run_spends`: a run pays for its calls and for the tokens that it leaves.
* `Parser.layers_pays`, `Parser.nested_pays`: what is left over by the layers of an expression.
-/

import Formula.Proofs.Calls
import Formula.Proofs.Parser.Steps

namespace Formula

variable {σ ε α β γ : Type}

/-! ### Tokens to come -/

/-- Holds of the readings that give a token other than the end of the input. -/
def Scanned.isToken (scanned : Scanned) : Bool :=
  match scanned.outcome with
  | .ok token => token != .endOfInput
  | .error _ => false

/-- How many tokens there are among readings. -/
def tokensIn (items : List Scanned) : Nat :=
  items.countP Scanned.isToken

theorem tokensIn_le {items more : List Scanned} (fewer : items <:+ more) :
    tokensIn items ≤ tokensIn more :=
  fewer.sublist.countP_le

theorem tokensIn_cons {start : Nat} {token : Token} (more : token ≠ .endOfInput)
    (items : List Scanned) : tokensIn (⟨start, .ok token⟩ :: items) = tokensIn items + 1 :=
  List.countP_cons_of_pos (bne_iff_ne.mpr more)

/-- The readings after the next one are among those before it. -/
theorem Tape.next_suffix (tape : Tape) : tape.next.2.items <:+ tape.items := by
  obtain ⟨_ | ⟨item, items⟩, last⟩ := tape
  · exact List.suffix_refl _
  · exact List.suffix_cons item items

namespace Cursor

/-- How many tokens there are from a cursor on, the end of the input apart. -/
def toCome (cursor : Cursor) : Nat :=
  (if cursor.token = .endOfInput then 0 else 1) + tokensIn cursor.tape.items

theorem tokensIn_le_toCome (cursor : Cursor) : tokensIn cursor.tape.items ≤ cursor.toCome :=
  Nat.le_add_left _ _

theorem toCome_le (cursor : Cursor) :
    cursor.toCome ≤ (cursor.tape.last :: cursor.tape.items).length := by
  have fewer : tokensIn cursor.tape.items ≤ cursor.tape.items.length := List.countP_le_length
  rw [toCome, List.length_cons]
  split <;> omega

variable {cursor after : Cursor}

theorem next_suffix (next : cursor.next = .ok after) : after.tape.items <:+ cursor.tape.items := by
  obtain ⟨start, token, tape, found, rfl⟩ := next_eq_ok next
  have fewer := cursor.tape.next_suffix
  rwa [found] at fewer

/-- No token comes from the end of the input on. -/
theorem Placed.toCome_eq_zero (placed : cursor.Placed) (ended : cursor.token = .endOfInput) :
    cursor.toCome = 0 := by
  rw [toCome, if_pos ended, (placed.atEnd ended).1]
  rfl

theorem token_of_toCome (nothing : cursor.toCome = 0) : cursor.token = .endOfInput := by
  refine Decidable.byContradiction fun more => ?_
  rw [toCome, if_neg more] at nothing
  omega

/-- Passing over a token takes one from those to come. -/
theorem Placed.toCome_next (placed : cursor.Placed) (next : cursor.next = .ok after)
    (more : cursor.token ≠ .endOfInput) : after.toCome + 1 = cursor.toCome := by
  rw [toCome.eq_def cursor, if_neg more]
  rcases placed.next_cases next with ⟨start, items, more', found, tape⟩ | ⟨ended, found, tape, -⟩
  · rw [toCome, if_neg more', tape, found, tokensIn_cons more', Nat.add_assoc]
  · rw [toCome, if_pos ended, tape, found]
    rfl

theorem Placed.toCome_next_le (placed : cursor.Placed) (next : cursor.next = .ok after) :
    after.toCome ≤ cursor.toCome := by
  by_cases ended : cursor.token = .endOfInput
  · rcases placed.next_cases next with ⟨_, _, _, found, _⟩ | ⟨ended', _⟩
    · rw [(placed.atEnd ended).1] at found
      cases found
    · rw [(placed.next next).toCome_eq_zero ended']
      exact Nat.zero_le _
  · have one := placed.toCome_next next ended
    omega

end Cursor

/-! ### Dialogues -/

namespace Dialogue

/-- Whatever is answered, every request is paid for: after it the funds still cover the tokens on
the tape, as they do after a refusal. The result is reached with funds and a cursor as told. The
readings on the tape get fewer from step to step, the first time from the given ones on. -/
def Frugal (results : Nat → β → Cursor → Prop) : List Scanned → Nat → Dialogue α β → Prop
  | items, funds, done cursor (.ok value) =>
    cursor.tape.items <:+ items ∧ results funds value cursor
  | items, funds, done cursor (.error _) =>
    cursor.tape.items <:+ items ∧ 11 * tokensIn cursor.tape.items ≤ funds
  | items, funds, ask cursor _ resume =>
    cursor.tape.items <:+ items ∧ ∃ left, funds = left + 1 ∧
      11 * tokensIn cursor.tape.items ≤ left ∧
      ∀ answer, (resume answer).Frugal results cursor.tape.items left

variable {results : Nat → β → Cursor → Prop} {items : List Scanned} {funds : Nat}
  {dialogue : Dialogue α β}

theorem Frugal.widen {more : List Scanned} (frugal : dialogue.Frugal results items funds)
    (wider : items <:+ more) : dialogue.Frugal results more funds := by
  cases dialogue with
  | done cursor outcome => cases outcome <;> exact ⟨frugal.1.trans wider, frugal.2⟩
  | ask cursor request resume => exact ⟨frugal.1.trans wider, frugal.2⟩

theorem Frugal.mono {results' : Nat → β → Cursor → Prop}
    (frugal : dialogue.Frugal results items funds)
    (result : ∀ funds value cursor, results funds value cursor → results' funds value cursor) :
    dialogue.Frugal results' items funds := by
  induction dialogue generalizing items funds with
  | done cursor outcome =>
    cases outcome with
    | ok value => exact ⟨frugal.1, result _ _ _ frugal.2⟩
    | error error => exact frugal
  | ask cursor request resume step =>
    obtain ⟨fewer, left, paid, covered, rest⟩ := frugal
    exact ⟨fewer, left, paid, covered, fun answer => step answer (rest answer)⟩

theorem Frugal.andThen {dialogue : Dialogue α γ} {next : γ → Cursor → Dialogue α β}
    (frugal : dialogue.Frugal
      (fun left value cursor => (next value cursor).Frugal results cursor.tape.items left)
      items funds) : (dialogue.andThen next).Frugal results items funds := by
  induction dialogue generalizing items funds with
  | done cursor outcome =>
    cases outcome with
    | ok value => exact frugal.2.widen frugal.1
    | error error => exact frugal
  | ask cursor request resume step =>
    obtain ⟨fewer, left, paid, covered, rest⟩ := frugal
    exact ⟨fewer, left, paid, covered, fun answer => step answer (rest answer)⟩

/-- The readings that are left at each request of a run, and at its result or refusal. -/
def tapes (handler : Handler σ ε α) : Dialogue α β → σ → List (List Scanned)
  | done cursor _, _ => [cursor.tape.items]
  | ask cursor request resume, state =>
    cursor.tape.items ::
      match (handler.answer request).run.run state with
      | (.ok answer, state) => (resume answer).tapes handler state
      | (.error _, _) => []

/-- The readings that a run leaves are those at its last step. -/
theorem getLast?_tapes (handler : Handler σ ε α) (dialogue : Dialogue α β) (state : σ) :
    (dialogue.tapes handler state).getLast? =
      some (dialogue.run handler state).cursor.tape.items := by
  induction dialogue generalizing state with
  | done cursor outcome => rfl
  | ask cursor request resume step =>
    rw [run, tapes]
    generalize (handler.answer request).run.run state = answered
    obtain ⟨outcome, after⟩ := answered
    cases outcome with
    | ok answer =>
      dsimp only
      rw [List.getLast?_cons, step answer after]
      rfl
    | error error => rfl

/-- The readings on the tape get fewer from step to step of a run. -/
theorem Frugal.run_tapes (handler : Handler σ ε α) (frugal : dialogue.Frugal results items funds)
    (state : σ) :
    (items :: dialogue.tapes handler state).Pairwise fun before after => after <:+ before := by
  induction dialogue generalizing items funds state with
  | done cursor outcome =>
    have fewer : cursor.tape.items <:+ items := by cases outcome <;> exact frugal.1
    exact List.pairwise_pair.mpr fewer
  | ask cursor request resume step =>
    obtain ⟨fewer, left, -, -, rest⟩ := frugal
    have onward : (tapes handler (.ask cursor request resume) state).Pairwise
        fun before after => after <:+ before := by
      rw [tapes]
      generalize (handler.answer request).run.run state = answered
      obtain ⟨outcome, after⟩ := answered
      cases outcome with
      | ok answer => exact step answer (rest answer) after
      | error error => exact List.pairwise_singleton _ _
    refine List.pairwise_cons.mpr ⟨fun reached inside => ?_, onward⟩
    rw [tapes] at onward inside
    rcases List.mem_cons.mp inside with rfl | later
    · exact fewer
    · exact ((List.pairwise_cons.mp onward).1 reached later).trans fewer

/-- A run pays for each of its calls, and can still pay for the tokens that it leaves. -/
theorem Frugal.run_spends (handler : Handler σ ε α)
    (covers : ∀ left value cursor, results left value cursor →
      11 * tokensIn cursor.tape.items ≤ left)
    (frugal : dialogue.Frugal results items funds) (state : σ) :
    (dialogue.calls handler state).length +
      11 * tokensIn (dialogue.run handler state).cursor.tape.items ≤ funds := by
  induction dialogue generalizing items funds state with
  | done cursor outcome =>
    have covered : 11 * tokensIn cursor.tape.items ≤ funds := by
      cases outcome with
      | ok value => exact covers _ _ _ frugal.2
      | error error => exact frugal.2
    rw [calls, run, List.length_nil, Nat.zero_add]
    exact covered
  | ask cursor request resume step =>
    obtain ⟨fewer, left, rfl, covered, rest⟩ := frugal
    rw [calls, run]
    generalize (handler.answer request).run.run state = answered
    obtain ⟨outcome, after⟩ := answered
    cases outcome with
    | ok answer =>
      have spends := step answer (rest answer) after
      dsimp only [List.length_cons]
      omega
    | error error =>
      dsimp only [List.length_singleton]
      omega

/-- Funds are only spent: at a result they still cover no more than they did. -/
theorem Frugal.meets {holds : Nat → Cursor → Prop}
    (frugal : dialogue.Frugal (fun left _ cursor => holds left cursor) items funds)
    (weaken : ∀ left more cursor, left ≤ more → holds left cursor → holds more cursor) :
    dialogue.Meets (fun _ _ => True) (fun _ cursor => holds funds cursor) fun _ _ => True := by
  induction dialogue generalizing items funds with
  | done cursor outcome =>
    cases outcome with
    | ok value => exact frugal.2
    | error error => exact trivial
  | ask cursor request resume step =>
    obtain ⟨-, left, rfl, -, rest⟩ := frugal
    refine ⟨trivial, fun answer => (step answer (rest answer)).mono ?_ fun _ _ _ => trivial⟩
    exact fun _ cursor held => weaken left (left + 1) cursor (Nat.le_succ left) held

end Dialogue

/-! ### Steps -/

/-- Holds of funds that cover the tokens from a cursor on, with something to spare. -/
structure Cursor.Covered (spare funds : Nat) (cursor : Cursor) : Prop where
  placed : cursor.Placed
  enough : 11 * cursor.toCome + spare ≤ funds

namespace Cursor.Covered

variable {spare funds : Nat} {cursor after : Cursor}

theorem tokens (covered : cursor.Covered spare funds) :
    11 * tokensIn cursor.tape.items ≤ funds := by
  have few := cursor.tokensIn_le_toCome
  have enough := covered.enough
  omega

theorem less {fewer : Nat} (covered : cursor.Covered spare funds) (less : fewer ≤ spare) :
    cursor.Covered fewer funds :=
  ⟨covered.placed, by have := covered.enough; omega⟩

theorem setDepth (covered : cursor.Covered spare funds) (depth : Nat) :
    ({ cursor with depth } : Cursor).Covered spare funds :=
  ⟨covered.placed.setDepth depth, covered.enough⟩

/-- A token that is passed over leaves its worth to spare. -/
theorem next (covered : cursor.Covered spare funds) (next : cursor.next = .ok after)
    (more : cursor.token ≠ .endOfInput) : after.Covered (spare + 11) funds := by
  have one := covered.placed.toCome_next next more
  have enough := covered.enough
  exact ⟨covered.placed.next next, by omega⟩

theorem next_le (covered : cursor.Covered spare funds) (next : cursor.next = .ok after) :
    after.Covered spare funds := by
  have fewer := covered.placed.toCome_next_le next
  have enough := covered.enough
  exact ⟨covered.placed.next next, by omega⟩

end Cursor.Covered

namespace Parser

open Cursor (Covered)

variable {results : Nat → β → Cursor → Prop} {items : List Scanned} {spare funds extra : Nat}
  {cursor : Cursor}

theorem frugal_bind {parser : Parser α γ} {next : γ → Parser α β}
    (frugal : (parser cursor).Frugal
      (fun left value after => (next value after).Frugal results after.tape.items left)
      items funds) : ((parser >>= next) cursor).Frugal results items funds :=
  frugal.andThen

theorem frugal_pure {value : β} (reached : results funds value cursor) :
    ((pure value : Parser α β) cursor).Frugal results cursor.tape.items funds :=
  ⟨List.suffix_refl _, reached⟩

/-- A request is paid for with what is to spare. -/
theorem frugal_ask {request : Request α} {results : Nat → request.Answer → Cursor → Prop}
    (covered : cursor.Covered (spare + 1) funds)
    (answered : ∀ left answer, cursor.Covered spare left → results left answer cursor) :
    (ask request cursor).Frugal results cursor.tape.items funds := by
  obtain ⟨placed, enough⟩ := covered
  have few := cursor.tokensIn_le_toCome
  refine ⟨List.suffix_refl _, funds - 1, by omega, by omega, fun answer => ?_⟩
  exact ⟨List.suffix_refl _, answered _ answer ⟨placed, by omega⟩⟩

theorem frugal_refuse {error : ParseError} (covered : cursor.Covered spare funds) :
    ((refuse error : Parser α β) cursor).Frugal results cursor.tape.items funds :=
  ⟨List.suffix_refl _, covered.tokens⟩

theorem frugal_unexpected {expected : Expected} (covered : cursor.Covered spare funds) :
    (unexpected expected cursor : Dialogue α β).Frugal results cursor.tape.items funds := by
  rw [unexpected_eq]
  exact ⟨List.suffix_refl _, covered.tokens⟩

/-- Advancing takes the next reading from the tape, whatever token is kept meanwhile. -/
theorem frugal_advance {results : Nat → Unit → Cursor → Prop} (kept : Token)
    (covered : cursor.Covered spare funds)
    (goes : ∀ after, cursor.next = .ok after → results funds () after) :
    (advance { cursor with token := kept } : Dialogue α Unit).Frugal results cursor.tape.items
      funds := by
  cases next : cursor.next with
  | ok after =>
    have moved : ({ cursor with token := kept } : Cursor).next = .ok after := next
    rw [advance_of_ok moved]
    exact ⟨Cursor.next_suffix next, goes after next⟩
  | error error =>
    obtain ⟨start, tape, found⟩ := Cursor.next_eq_error next
    have fewer := cursor.tape.next_suffix
    rw [found] at fewer
    simp only [advance, found]
    exact ⟨fewer, Nat.le_trans (Nat.mul_le_mul_left 11 (tokensIn_le fewer)) covered.tokens⟩

/-- Holds of parsers that can pay for their requests with the tokens that they pass over, and leave
something over. -/
def Pays (extra : Nat) (parser : Parser α β) : Prop :=
  ∀ ⦃spare funds : Nat⦄ ⦃cursor : Cursor⦄, cursor.Covered spare funds →
    (parser cursor).Frugal (fun left _ after => after.Covered (spare + extra) left)
      cursor.tape.items funds

theorem Pays.less {parser : Parser α β} (pays : Pays extra parser) {fewer : Nat}
    (less : fewer ≤ extra) : Pays fewer parser :=
  fun _ _ _ covered => (pays covered).mono fun _ _ _ reached => reached.less (by omega)

theorem Pays.bind {parser : Parser α γ} {next : γ → Parser α β} {more : Nat}
    (pays : Pays extra parser) (rest : ∀ value, Pays more (next value)) :
    Pays (extra + more) (parser >>= next) := by
  intro spare funds cursor covered
  refine frugal_bind ((pays covered).mono fun left value after reached => ?_)
  exact (rest value reached).mono fun _ _ _ last => last.less (by omega)

theorem pure_pays (value : β) : Pays 0 (pure value : Parser α β) :=
  fun _ _ _ covered => frugal_pure covered

theorem expect_pays (token : Token) (expected : Expected) :
    Pays 0 (expect token expected : Parser α Unit) := by
  intro spare funds cursor covered
  rw [expect, cursor_bind]
  split
  · exact frugal_advance _ covered fun after next => covered.next_le next
  · exact frugal_unexpected covered

/-- A token that is consumed leaves its worth over. -/
theorem frugal_consume {results : Nat → Unit → Cursor → Prop} (covered : cursor.Covered spare funds)
    (more : cursor.token ≠ .endOfInput)
    (goes : ∀ after, after.Covered (spare + 11) funds → results funds () after) :
    (consume cursor : Dialogue α Unit).Frugal results cursor.tape.items funds := by
  rw [consume, move_bind]
  exact frugal_advance _ covered fun after next => goes after (covered.next next more)

/-- An operator leaves its worth over, if it is there. -/
theorem frugal_operator? {results : Nat → Option Operator → Cursor → Prop} (rule : Rule)
    (covered : cursor.Covered spare funds)
    (passed : ∀ operator after, after.Covered (spare + 11) funds →
      results funds (some operator) after)
    (stays : results funds none cursor) :
    (operator? rule cursor : Dialogue α _).Frugal results cursor.tape.items funds := by
  rw [operator?, cursor_bind]
  cases here : cursor.token with
  | operator operator =>
    by_cases member : operator ∈ rule.operators
    · simp only [if_pos member]
      refine frugal_bind (frugal_advance _ covered fun after next => ?_)
      exact frugal_pure (passed operator after (covered.next next (by simp [here])))
    · simp only [if_neg member]
      exact frugal_pure stays
  | _ => exact frugal_pure stays

/-! ### Operands -/

theorem names_pays (bound : List Scanned) (before : List String) :
    Pays 0 (names bound before : Parser α _) := by
  induction bound generalizing before with
  | nil => exact pure_pays _
  | cons item bound step =>
    intro spare funds cursor covered
    rw [names, cursor_bind]
    by_cases dot : cursor.token = .dot
    · rw [if_pos dot]
      refine frugal_bind (frugal_advance _ covered fun middle next => ?_)
      have passed := covered.next_le next
      rw [cursor_bind]
      cases here : middle.token with
      | name letters =>
        refine frugal_bind (frugal_consume passed (by simp [here]) fun after consumed => ?_)
        exact step (letters :: before) (consumed.less (by omega))
      | _ => exact frugal_unexpected passed
    · rw [if_neg dot]
      exact frugal_pure covered

section Arguments

variable {expression : Parser α α} (pays : Pays 0 expression)

include pays

theorem moreArguments_pays (bound : List Scanned) (before : List α) :
    Pays 0 (moreArguments expression bound before) := by
  induction bound generalizing before with
  | nil => exact pure_pays _
  | cons item bound step =>
    intro spare funds cursor covered
    rw [moreArguments, cursor_bind]
    by_cases comma : cursor.token = .comma
    · rw [if_pos comma]
      refine frugal_bind (frugal_advance _ covered fun middle next => ?_)
      exact pays.bind (fun argument => step (argument :: before)) (covered.next_le next)
    · rw [if_neg comma]
      exact frugal_pure covered

theorem arguments_pays : Pays 0 (arguments expression) := by
  have closes (values : List α) : Pays 0 (do
      expect .closeParen .separatorOrClosing
      return values : Parser α (List α)) :=
    (expect_pays _ _).bind fun _ => pure_pays values
  intro spare funds cursor covered
  rw [arguments, cursor_bind]
  by_cases close : cursor.token = .closeParen
  · rw [if_pos close]
    exact closes [] covered
  · rw [if_neg close]
    refine frugal_bind ((pays covered).mono fun left first middle reached => ?_)
    rw [ahead_bind]
    exact (moreArguments_pays pays _ [first]).bind closes reached

theorem arguments?_pays : Pays 0 (arguments? expression) := by
  intro spare funds cursor covered
  rw [arguments?, cursor_bind]
  by_cases opens : cursor.token = .openParen
  · rw [if_pos opens]
    refine frugal_bind (frugal_advance _ covered fun middle next => ?_)
    exact (arguments_pays pays).bind (fun values => pure_pays _) (covered.next_le next)
  · rw [if_neg opens]
    exact frugal_pure covered

/-- An operand pays for its own two requests and leaves nine over. -/
theorem atom_pays : Pays 9 (atom expression) := by
  intro spare funds cursor covered
  rw [atom, cursor_bind]
  cases here : cursor.token with
  | number lexeme =>
    refine frugal_bind (frugal_consume covered (by simp [here]) fun after consumed => ?_)
    refine frugal_bind (frugal_ask consumed fun left value paid => ?_)
    exact frugal_ask paid fun left value paid => paid
  | text content =>
    refine frugal_bind (frugal_consume covered (by simp [here]) fun after consumed => ?_)
    refine frugal_bind (frugal_ask consumed fun left value paid => ?_)
    exact frugal_ask paid fun left value paid => paid
  | name first =>
    refine frugal_bind (frugal_consume covered (by simp [here]) fun after consumed => ?_)
    rw [ahead_bind]
    refine frugal_bind ((names_pays _ [first] consumed).mono fun left segments middle named => ?_)
    refine frugal_bind (frugal_ask named fun left reference asked => ?_)
    refine frugal_bind ((arguments?_pays pays asked).mono fun left values last called => ?_)
    exact frugal_ask called fun left value paid => paid
  | openParen =>
    refine frugal_bind (frugal_consume covered (by simp [here]) fun after consumed => ?_)
    refine frugal_bind ((pays consumed).mono fun left value middle reached => ?_)
    refine frugal_bind ((expect_pays _ _ reached).mono fun left _ last closed => ?_)
    have enough : spare + 9 + 1 ≤ spare + 11 + 0 + 0 := by omega
    exact frugal_ask (closed.less enough) fun left value paid => paid
  | _ => exact frugal_unexpected covered

end Arguments

/-! ### Layers -/

theorem chain_pays (rule : Rule) {operand : Parser α α} (pays : Pays 0 operand)
    (bound : List Scanned) (before : List (String × α)) :
    Pays 0 (chain rule operand bound before) := by
  induction bound generalizing before with
  | nil => exact pure_pays _
  | cons item bound step =>
    intro spare funds cursor covered
    rw [chain]
    refine frugal_bind (frugal_operator? rule covered (fun operator middle passed => ?_) ?_)
    · have rest := pays.bind fun value => step ((operator.symbol, value) :: before)
      exact rest (passed.less (by omega))
    · exact frugal_pure covered

/-- Each layer takes one request from what its first operand leaves over. -/
theorem layers_pays {deeper : List Rule → Parser α α}
    (pays : ∀ rules, rules.length ≤ 9 → Pays 0 (deeper rules)) {rules : List Rule} {extra : Nat}
    (shared : rules.length + extra = 9) : Pays extra (layers deeper rules) := by
  induction rules generalizing extra with
  | nil =>
    have whole : extra = 9 := by simpa using shared
    exact whole ▸ atom_pays (pays _ (by decide))
  | cons rule tighter step =>
    rw [List.length_cons] at shared
    have operand : Pays (extra + 1) (layers deeper tighter) := step (by omega)
    intro spare funds cursor covered
    cases kind : rule.kind with
    | binary =>
      simp only [layers, kind]
      refine frugal_bind ((operand covered).mono fun left first middle reached => ?_)
      rw [ahead_bind]
      have links := chain_pays rule (operand.less (Nat.zero_le _))
        (middle.tape.last :: middle.tape.items) []
      refine frugal_bind ((links reached).mono fun left rest last linked => ?_)
      exact frugal_ask linked fun left value paid => paid
    | unary =>
      simp only [layers, kind]
      refine frugal_bind (frugal_operator? rule covered (fun operator middle passed => ?_) ?_)
      · have inside := pays (rule :: tighter) (by rw [List.length_cons]; omega)
        refine frugal_bind ((inside passed).mono fun left value last reached => ?_)
        exact frugal_ask (reached.less (by omega)) fun left value paid => paid
      · refine frugal_bind ((operand covered).mono fun left value last reached => ?_)
        exact frugal_ask reached fun left value paid => paid

/-! ### Nesting -/

/-- What stands one level deeper pays for itself. -/
theorem nested_pays (limit room : Nat) (rules : List Rule) (few : rules.length ≤ 9) :
    Pays 0 (nested limit room rules : Parser α α) := by
  induction room generalizing rules with
  | zero => exact fun spare funds cursor covered => frugal_refuse covered
  | succ room deeper =>
    intro spare funds cursor covered
    have inside : Pays (9 - rules.length) (layers (nested limit room) rules : Parser α α) :=
      layers_pays deeper (by omega)
    have pays := inside (covered.setDepth (cursor.depth + 1))
    simp only [nested, move_bind]
    refine frugal_bind (pays.mono fun left value last reached => ?_)
    rw [move_bind]
    exact ⟨List.suffix_refl _, (reached.less (Nat.le_add_right _ _)).setDepth _⟩

/-- A whole parse pays for all its requests. -/
theorem complete_pays (limit : Nat) : Pays 0 (complete limit : Parser α α) := by
  intro spare funds cursor covered
  have inside := @nested_pays α limit (limit - cursor.depth) Rule.precedence (by decide)
  rw [complete, expression]
  refine frugal_bind ((inside covered).mono fun left value last reached => ?_)
  exact (expect_pays _ _).bind (fun _ => pure_pays value) reached

end Parser

end Formula
