/-
**Loops and recursions that pass over tokens.**

The parser goes round in two ways: a loop takes another turn, and an expression is read inside an
expression. Each time at least one token has been passed over since the last. So what is done at a
cursor depends on later turns, and on expressions inside, only where fewer tokens are to come
(`Parser.SameBelow`). Nothing else is needed for an end: the bounds on the loops are never reached
(`Parser.Repeats`), and neither is the limit on the levels, if it is above the number of tokens
(`Parser.nested_room`).

* `Parser.Repeats.of_turns`: a loop within the readings to come is the loop without a bound.
* `Parser.layers_same`: what is one level deeper is read after a token.
-/

import Formula.Proofs.Parser.Frugal

namespace Formula

variable {α β γ ι : Type}

/-! ### The same rest -/

/-- Dialogues that go on alike from the results that are met are the same. -/
theorem Dialogue.andThen_same {dialogue : Dialogue α γ} {next next' : γ → Cursor → Dialogue α β}
    {asks : Cursor → Request α → Prop} {results : γ → Cursor → Prop}
    {refusals : ParseError → Cursor → Prop} (meets : dialogue.Meets asks results refusals)
    (same : ∀ value after, results value after → next value after = next' value after) :
    dialogue.andThen next = dialogue.andThen next' := by
  induction dialogue with
  | done cursor outcome =>
    cases outcome with
    | ok value => exact same value cursor meets
    | error error => rfl
  | ask cursor request resume step =>
    exact congrArg (ask cursor request) (funext fun answer => step answer (meets.2 answer))

namespace Parser

/-- Holds of parsers that are the same wherever fewer than so many tokens are to come. -/
def SameBelow (count : Nat) (first second : Parser α β) : Prop :=
  ∀ later : Cursor, later.Placed → later.toCome < count → first later = second later

theorem SameBelow.refl (count : Nat) (parser : Parser α β) : SameBelow count parser parser :=
  fun _ _ _ => rfl

theorem SameBelow.less {count fewer : Nat} {first second : Parser α β}
    (same : SameBelow count first second) (less : fewer ≤ count) : SameBelow fewer first second :=
  fun later placed few => same later placed (Nat.lt_of_lt_of_le few less)

variable {cursor : Cursor}

theorem bind_same {parser parser' : Parser α γ} {next next' : γ → Parser α β}
    {asks : Cursor → Request α → Prop} {results : γ → Cursor → Prop}
    {refusals : ParseError → Cursor → Prop} (here : parser cursor = parser' cursor)
    (meets : (parser cursor).Meets asks results refusals)
    (rest : ∀ value after, results value after → next value after = next' value after) :
    (parser >>= next) cursor = (parser' >>= next') cursor := by
  show Dialogue.andThen (parser cursor) _ = Dialogue.andThen (parser' cursor) _
  rw [← here]
  exact Dialogue.andThen_same meets rest

theorem ask_same {request : Request α} {next next' : request.Answer → Parser α β}
    (rest : ∀ answer, next answer cursor = next' answer cursor) :
    (ask request >>= next) cursor = (ask request >>= next') cursor :=
  congrArg (Dialogue.ask cursor request) (funext rest)

/-- After a token fewer are to come. -/
theorem pass_same {pass : Parser α Unit} {next next' : Unit → Parser α β}
    (passes : (pass cursor).Meets (fun _ _ => True) (fun _ after => cursor.next = .ok after)
      fun _ _ => True)
    (placed : cursor.Placed) (more : cursor.token ≠ .endOfInput)
    (same : ∀ after, after.Placed → after.toCome < cursor.toCome → next () after = next' () after) :
    (pass >>= next) cursor = (pass >>= next') cursor := by
  refine bind_same rfl passes fun _ after next => same after (placed.next next) ?_
  have one := placed.toCome_next next more
  omega

theorem advance_same {next next' : Unit → Parser α β} (placed : cursor.Placed)
    (more : cursor.token ≠ .endOfInput)
    (same : ∀ after, after.Placed → after.toCome < cursor.toCome → next () after = next' () after) :
    (advance >>= next) cursor = (advance >>= next') cursor :=
  pass_same (meets_advance (fun _ next => next) fun _ _ _ _ => trivial) placed more same

theorem consume_same {next next' : Unit → Parser α β} (placed : cursor.Placed)
    (more : cursor.token ≠ .endOfInput)
    (same : ∀ after, after.Placed → after.toCome < cursor.toCome → next () after = next' () after) :
    (consume >>= next) cursor = (consume >>= next') cursor :=
  pass_same (meets_consume (fun _ next => next) fun _ _ _ _ => trivial) placed more same

theorem operator?_same {next next' : Option Operator → Parser α β} (rule : Rule)
    (placed : cursor.Placed)
    (passed : ∀ operator after, after.Placed → after.toCome < cursor.toCome →
      next (some operator) after = next' (some operator) after)
    (stays : next none cursor = next' none cursor) :
    (operator? rule >>= next) cursor = (operator? rule >>= next') cursor := by
  by_cases here : ∃ operator ∈ rule.operators, cursor.token = .operator operator
  · obtain ⟨operator, member, here⟩ := here
    rw [operator?_bind member here, operator?_bind member here]
    exact advance_same placed (by simp [here]) (passed operator)
  · have other : ∀ operator ∈ rule.operators, cursor.token ≠ .operator operator :=
      fun operator member here' => here ⟨operator, member, here'⟩
    show Dialogue.andThen (operator? rule cursor) _ = Dialogue.andThen (operator? rule cursor) _
    rw [operator?_of_other other]
    exact stays

/-- A parser that pays for itself goes on in the text. -/
theorem Pays.meets {parser : Parser α β} {extra : Nat} (pays : Pays extra parser)
    (placed : cursor.Placed) :
    (parser cursor).Meets (fun _ _ => True)
      (fun _ after => after.Placed ∧ after.toCome ≤ cursor.toCome) fun _ _ => True := by
  have frugal := pays (⟨placed, Nat.le_refl _⟩ : cursor.Covered 0 (11 * cursor.toCome))
  have weaken : ∀ left more (after : Cursor), left ≤ more → after.Covered (0 + extra) left →
      after.Covered (0 + extra) more :=
    fun _ _ _ less covered => ⟨covered.placed, Nat.le_trans covered.enough less⟩
  refine (frugal.meets weaken).mono (fun value after covered => ?_) fun _ _ _ => trivial
  have enough := covered.enough
  exact ⟨covered.placed, by omega⟩

/-- What comes after a parser that pays for itself has no more tokens to come. -/
theorem Pays.bind_same {parser parser' : Parser α γ} {next next' : γ → Parser α β} {extra : Nat}
    (pays : Pays extra parser) (placed : cursor.Placed) (here : parser cursor = parser' cursor)
    (rest : ∀ value after, after.Placed → after.toCome ≤ cursor.toCome →
      next value after = next' value after) :
    (parser >>= next) cursor = (parser' >>= next') cursor :=
  Parser.bind_same here (pays.meets placed) fun value after onward =>
    rest value after onward.1 onward.2

/-! ### Loops -/

/-- Holds of a turn that depends on the next one only after a token. -/
def Advancing (turn : (ι → Parser α β) → ι → Parser α β) : Prop :=
  ∀ ⦃cursor : Cursor⦄, cursor.Placed → ∀ again other : ι → Parser α β,
    (∀ before, SameBelow cursor.toCome (again before) (other before)) →
      ∀ before, turn again before cursor = turn other before cursor

/-- Holds of a loop that takes the same turn over and over, without a bound, where every turn but
the first comes after a token. -/
structure Repeats (turn : (ι → Parser α β) → ι → Parser α β)
    (loop : List Scanned → ι → Parser α β) : Prop where
  advancing : Advancing turn
  endless : ∀ ⦃cursor : Cursor⦄, cursor.Placed → ∀ before,
    (do loop (← ahead) before) cursor = turn (fun before => do loop (← ahead) before) before cursor

section Loops

variable {turn : (ι → Parser α β) → ι → Parser α β} {loop : List Scanned → ι → Parser α β}
  (turns : ∀ item bound before, loop (item :: bound) before = turn (loop bound) before)
  (advancing : Advancing turn)
  (stops : ∀ ⦃cursor : Cursor⦄, cursor.token = .endOfInput → ∀ again before,
    turn again before cursor = loop [] before cursor)

include turns advancing stops

/-- Any bound will do, if it is no less than the number of tokens to come. -/
theorem loop_bound {bound other : List Scanned} (placed : cursor.Placed)
    (enough : cursor.toCome ≤ bound.length) (enough' : cursor.toCome ≤ other.length) (before : ι) :
    loop bound before cursor = loop other before cursor := by
  induction bound generalizing cursor other before with
  | nil =>
    have ended := Cursor.token_of_toCome (Nat.le_zero.mp enough)
    cases other with
    | nil => rfl
    | cons item other => rw [turns, stops ended]
  | cons item bound step =>
    cases other with
    | nil => rw [turns, stops (Cursor.token_of_toCome (Nat.le_zero.mp enough'))]
    | cons item' other =>
      rw [List.length_cons] at enough enough'
      rw [turns, turns]
      refine advancing placed _ _ (fun before later later_placed fewer => ?_) before
      exact step later_placed (by omega) (by omega) before

theorem Repeats.of_turns : Repeats turn loop := by
  refine ⟨advancing, fun cursor placed before => ?_⟩
  rw [ahead_bind, turns]
  refine advancing placed _ _ (fun before later later_placed fewer => ?_) before
  have few := cursor.toCome_le
  rw [List.length_cons] at few
  rw [ahead_bind]
  exact loop_bound turns advancing stops later_placed (by omega) later.toCome_le before

end Loops

/-- One turn of the loop that reads the names of a reference. -/
def namesTurn (again : List String → Parser α (List String)) (before : List String) :
    Parser α (List String) := do
  if (← Parser.cursor).token = .dot then
    advance
    match (← Parser.cursor).token with
    | .name letters =>
      consume
      again (letters :: before)
    | _ => unexpected .segment
  else return before.reverse

/-- One turn of the loop that reads the arguments of a call. -/
def argumentsTurn (expression : Parser α α) (again : List α → Parser α (List α))
    (before : List α) : Parser α (List α) := do
  if (← Parser.cursor).token = .comma then
    advance
    let argument ← expression
    again (argument :: before)
  else return before.reverse

/-- One turn of the loop that reads a chain. -/
def chainTurn (rule : Rule) (operand : Parser α α)
    (again : List (String × α) → Parser α (List (String × α))) (before : List (String × α)) :
    Parser α (List (String × α)) := do
  match ← operator? rule with
  | some operator =>
    let value ← operand
    again ((operator.symbol, value) :: before)
  | none => return before.reverse

theorem names_repeats : Repeats namesTurn (names : _ → _ → Parser α _) := by
  refine .of_turns (fun _ _ _ => rfl) (fun cursor placed again other same before => ?_) ?_
  · rw [namesTurn, namesTurn, cursor_bind, cursor_bind]
    by_cases dot : cursor.token = .dot
    · rw [if_pos dot, if_pos dot]
      refine advance_same placed (by simp [dot]) fun middle middle_placed fewer => ?_
      rw [cursor_bind, cursor_bind]
      cases here : middle.token with
      | name letters =>
        refine consume_same middle_placed (by simp [here]) fun after after_placed fewer' => ?_
        exact same _ after after_placed (by omega)
      | _ => rfl
    · rw [if_neg dot, if_neg dot]
  · intro cursor ended again before
    rw [namesTurn, cursor_bind, if_neg (by simp [ended])]
    rfl

/-- A turn reads an argument after a comma, and what it does next comes after that. -/
theorem argumentsTurn_same {first second : Parser α α} {again other : List α → Parser α (List α)}
    (pays : Pays 0 first) (placed : cursor.Placed)
    (same : SameBelow cursor.toCome first second)
    (onward : ∀ before, SameBelow cursor.toCome (again before) (other before)) (before : List α) :
    argumentsTurn first again before cursor = argumentsTurn second other before cursor := by
  rw [argumentsTurn, argumentsTurn, cursor_bind, cursor_bind]
  by_cases comma : cursor.token = .comma
  · rw [if_pos comma, if_pos comma]
    refine advance_same placed (by simp [comma]) fun middle middle_placed fewer => ?_
    have here := same middle middle_placed fewer
    refine pays.bind_same middle_placed here fun argument after after_placed fewer' => ?_
    exact onward _ after after_placed (by omega)
  · rw [if_neg comma, if_neg comma]

theorem arguments_repeats {expression : Parser α α} (pays : Pays 0 expression) :
    Repeats (argumentsTurn expression) (moreArguments expression) := by
  refine .of_turns (fun _ _ _ => rfl) (fun cursor placed again other onward before => ?_) ?_
  · exact argumentsTurn_same pays placed (.refl _ _) onward before
  · intro cursor ended again before
    rw [argumentsTurn, cursor_bind, if_neg (by simp [ended])]
    rfl

/-- A turn reads an operand after an operator, and what it does next comes after that. -/
theorem chainTurn_same (rule : Rule) {first second : Parser α α}
    {again other : List (String × α) → Parser α (List (String × α))} (pays : Pays 0 first)
    (placed : cursor.Placed)
    (same : SameBelow cursor.toCome first second)
    (onward : ∀ before, SameBelow cursor.toCome (again before) (other before))
    (before : List (String × α)) :
    chainTurn rule first again before cursor = chainTurn rule second other before cursor := by
  rw [chainTurn, chainTurn]
  refine operator?_same rule placed (fun operator middle middle_placed fewer => ?_) rfl
  have here := same middle middle_placed fewer
  refine pays.bind_same middle_placed here fun value after after_placed fewer' => ?_
  exact onward _ after after_placed (by omega)

theorem chain_repeats (rule : Rule) {operand : Parser α α} (pays : Pays 0 operand) :
    Repeats (chainTurn rule operand) (chain rule operand) := by
  refine .of_turns (fun _ _ _ => rfl) (fun cursor placed again other onward before => ?_) ?_
  · exact chainTurn_same rule pays placed (.refl _ _) onward before
  · intro cursor ended again before
    have other : ∀ operator ∈ rule.operators, cursor.token ≠ .operator operator := by simp [ended]
    show Dialogue.andThen (operator? rule cursor) _ = _
    rw [operator?_of_other other]
    rfl

/-! ### Recursion -/

section Same

variable {count : Nat} {first second : Parser α α} (pays : Pays 0 first)
  (same : SameBelow count first second)

include pays same

theorem moreArguments_same (placed : cursor.Placed) (few : cursor.toCome ≤ count)
    (bound : List Scanned) (before : List α) :
    moreArguments first bound before cursor = moreArguments second bound before cursor := by
  induction bound generalizing cursor before with
  | nil => rfl
  | cons item bound step =>
    exact argumentsTurn_same pays placed (same.less few)
      (fun before later later_placed fewer => step later_placed (by omega) before) before

theorem arguments_same (placed : cursor.Placed) (fewer : cursor.toCome < count) :
    arguments first cursor = arguments second cursor := by
  rw [arguments, arguments, cursor_bind, cursor_bind]
  by_cases close : cursor.token = .closeParen
  · rw [if_pos close, if_pos close]
  · rw [if_neg close, if_neg close]
    have here := same cursor placed fewer
    refine pays.bind_same placed here fun argument middle middle_placed fewer' => ?_
    have more := moreArguments_same pays same middle_placed (by omega)
      (middle.tape.last :: middle.tape.items) [argument]
    rw [ahead_bind, ahead_bind]
    exact bind_same more (moreArguments_pays pays _ _ |>.meets middle_placed) fun _ _ _ => rfl

theorem arguments?_same (placed : cursor.Placed) (few : cursor.toCome ≤ count) :
    arguments? first cursor = arguments? second cursor := by
  rw [arguments?, arguments?, cursor_bind, cursor_bind]
  by_cases opens : cursor.token = .openParen
  · rw [if_pos opens, if_pos opens]
    refine advance_same placed (by simp [opens]) fun middle middle_placed fewer => ?_
    have inside := arguments_same pays same middle_placed (by omega)
    exact (arguments_pays pays).bind_same middle_placed inside fun _ _ _ _ => rfl
  · rw [if_neg opens, if_neg opens]

theorem atom_same (placed : cursor.Placed) (few : cursor.toCome ≤ count) :
    atom first cursor = atom second cursor := by
  rw [atom, atom, cursor_bind, cursor_bind]
  cases here : cursor.token with
  | name letters =>
    refine consume_same placed (by simp [here]) fun after after_placed fewer => ?_
    rw [ahead_bind, ahead_bind]
    have named : Pays 0 (names (after.tape.last :: after.tape.items) [letters] : Parser α _) :=
      names_pays _ _
    refine named.bind_same after_placed rfl fun segments middle middle_placed fewer' => ?_
    refine ask_same fun reference => ?_
    have called := arguments?_same pays same middle_placed (by omega)
    exact (arguments?_pays pays).bind_same middle_placed called fun _ _ _ _ => rfl
  | openParen =>
    refine consume_same placed (by simp [here]) fun after after_placed fewer => ?_
    exact pays.bind_same after_placed (same after after_placed (by omega)) fun _ _ _ _ => rfl
  | _ => rfl

theorem chain_same (rule : Rule) (placed : cursor.Placed) (few : cursor.toCome ≤ count)
    (bound : List Scanned) (before : List (String × α)) :
    chain rule first bound before cursor = chain rule second bound before cursor := by
  induction bound generalizing cursor before with
  | nil => rfl
  | cons item bound step =>
    exact chainTurn_same rule pays placed (same.less few)
      (fun before later later_placed fewer => step later_placed (by omega) before) before

end Same

/-- Holds of parsers of layers, nine at most, that are the same wherever fewer than so many tokens
are to come. -/
def SameDeeper (count : Nat) (first second : List Rule → Parser α β) : Prop :=
  ∀ rules, rules.length ≤ 9 → SameBelow count (first rules) (second rules)

/-- What stands one level deeper is read after a token. -/
theorem layers_same {first second : List Rule → Parser α α}
    (pays : ∀ rules, rules.length ≤ 9 → Pays 0 (first rules)) {count : Nat}
    (same : SameDeeper count first second) (placed : cursor.Placed) (few : cursor.toCome ≤ count)
    {rules : List Rule} (short : rules.length ≤ 9) :
    layers first rules cursor = layers second rules cursor := by
  induction rules generalizing cursor with
  | nil =>
    exact atom_same (pays _ (by decide)) (same Rule.precedence (by decide)) placed few
  | cons rule tighter step =>
    have shorter : tighter.length ≤ 9 := Nat.le_of_succ_le short
    have operand_pays : Pays 0 (layers first tighter) :=
      (layers_pays pays (Nat.add_sub_of_le shorter)).less (Nat.zero_le _)
    have operand_same := step placed few shorter
    cases kind : rule.kind with
    | binary =>
      simp only [layers, kind]
      refine operand_pays.bind_same placed operand_same fun value middle middle_placed fewer => ?_
      rw [ahead_bind, ahead_bind]
      have later_same : SameBelow count (layers first tighter) (layers second tighter) :=
        fun later later_placed fewer => step later_placed (Nat.le_of_lt fewer) shorter
      have links := chain_same operand_pays later_same rule middle_placed (by omega)
        (middle.tape.last :: middle.tape.items) []
      exact (chain_pays rule operand_pays _ []).bind_same middle_placed links fun _ _ _ _ => rfl
    | unary =>
      simp only [layers, kind]
      refine operator?_same rule placed (fun operator middle middle_placed fewer => ?_) ?_
      · have here := same (rule :: tighter) short middle middle_placed (by omega)
        exact (pays _ short).bind_same middle_placed here fun _ _ _ _ => rfl
      · exact operand_pays.bind_same placed operand_same fun _ _ _ _ => rfl

/-- The room for levels has no part in what is read, if it is above the number of tokens to come:
every level is opened after a token, but the first. -/
theorem nested_room (limit : Nat) {room other : Nat} (placed : cursor.Placed)
    (enough : cursor.toCome < room) (enough' : cursor.toCome < other) {rules : List Rule}
    (short : rules.length ≤ 9) :
    (nested limit room rules cursor : Dialogue α α) = nested limit other rules cursor := by
  induction room generalizing other cursor rules with
  | zero => exact absurd enough (Nat.not_lt_zero _)
  | succ room step =>
    obtain ⟨other, rfl⟩ := Nat.exists_eq_succ_of_ne_zero (Nat.ne_zero_of_lt enough')
    have deeper : SameDeeper cursor.toCome (nested limit room : List Rule → Parser α α)
        (nested limit other) :=
      fun rules short later later_placed fewer =>
        step later_placed (by omega) (by omega) short
    have same := layers_same (nested_pays limit room) deeper (placed.setDepth (cursor.depth + 1))
      (Nat.le_refl cursor.toCome) short
    simp only [nested, move_bind]
    show Dialogue.andThen (layers _ rules _) _ = Dialogue.andThen (layers _ rules _) _
    rw [same]

end Parser

end Formula
