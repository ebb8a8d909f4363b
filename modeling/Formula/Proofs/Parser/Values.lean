/-
**A parse does not look at values.**

The values that a parse is answered with are handed on to later requests and to the result, and are
not looked at. So when every answer is replaced by its image under a function, the dialogue stays as
it is, but for the values in it (`Dialogue.Maps`): each request asks for the images of the same
values, at the same cursor, and the result is the image of the result.

* `Dialogue.ofText_maps`: the dialogues of a text, with values of one type and of another.
* `Dialogue.Maps.run`: if the answers of one handler are the images of the answers of another, so
  are the outcomes of the runs, whatever the states are.
-/

import Formula.Proofs.Comparison

namespace Formula

variable {σ τ ε ε' α β γ γ' δ δ' : Type}

/-! ### Requests for other values -/

/-- The operand with other values. -/
def Atom.map (image : α → β) : Atom α → Atom β
  | literal value => literal (image value)
  | reference target arguments => reference target (arguments.map (List.map image))
  | group value => group (image value)

/-- What a layer matched, with other values. -/
def Reduction.map (image : α → β) : Reduction α → Reduction β
  | passthrough operand => passthrough (image operand)
  | binary first rest => binary (image first) (rest.map (Prod.map id image))
  | unary operator operand => unary operator (image operand)

namespace Request

/-- The request with other values. -/
def map (image : α → β) : Request α → Request β
  | .number lexeme => .number lexeme
  | .text content => .text content
  | .reference segments => .reference segments
  | .atom operand => .atom (operand.map image)
  | .reduce rule reduction => .reduce rule (reduction.map image)

/-- The answer to the request with other values. A reference is no value. -/
def mapAnswer (image : α → β) : (request : Request α) → request.Answer → (request.map image).Answer
  | .number _, value => image value
  | .text _, value => image value
  | .reference _, target => target
  | .atom _, value => image value
  | .reduce _ _, value => image value

end Request

/-! ### Dialogues with other values -/

namespace Dialogue

/-- Holds of two dialogues where the second one is the first one with the images of its values. A
dialogue takes values as well as it gives them, so it has no image of its own. -/
inductive Maps (image : α → β) (results : γ → δ) : Dialogue α γ → Dialogue β δ → Prop
  | result (value : γ) (cursor : Cursor) :
    Maps image results (.done cursor (.ok value)) (.done cursor (.ok (results value)))
  | refusal (error : ParseError) (cursor : Cursor) :
    Maps image results (.done cursor (.error error)) (.done cursor (.error error))
  | ask {cursor : Cursor} {request : Request α} {resume : request.Answer → Dialogue α γ}
    {resume' : (request.map image).Answer → Dialogue β δ}
    (more : ∀ answer, Maps image results (resume answer)
      (resume' (request.mapAnswer image answer))) :
    Maps image results (.ask cursor request resume) (.ask cursor (request.map image) resume')

variable {image : α → β} {results : γ → δ}

theorem Maps.andThen {results' : γ' → δ'} {first : Dialogue α γ} {second : Dialogue β δ}
    {next : γ → Cursor → Dialogue α γ'} {next' : δ → Cursor → Dialogue β δ'}
    (maps : first.Maps image results second)
    (rest : ∀ value cursor,
      (next value cursor).Maps image results' (next' (results value) cursor)) :
    (first.andThen next).Maps image results' (second.andThen next') := by
  induction maps with
  | result value cursor => exact rest value cursor
  | refusal error cursor => exact .refusal error cursor
  | ask _ step => exact .ask step

/-- Where the answers of a handler are the images of the answers of another one, so are the
outcomes. The two handlers may keep what states they like. -/
theorem Maps.run {handler : Handler σ ε α} {handler' : Handler τ ε' β} {errors : ε → ε'}
    (same_errors : ∀ error, handler'.ofError error = errors (handler.ofError error))
    (answers : ∀ request state state', ((handler'.answer (request.map image)).run.run state').1 =
      (((handler.answer request).run.run state).1.map (request.mapAnswer image)).mapError errors)
    {first : Dialogue α γ} {second : Dialogue β δ} (maps : first.Maps image results second)
    (state : σ) (state' : τ) :
    (second.run handler' state').outcome =
      ((first.run handler state).outcome.map results).mapError errors := by
  induction maps generalizing state state' with
  | result value cursor => rfl
  | refusal error cursor => exact congrArg Except.error (same_errors (.refused error))
  | @ask cursor request resume resume' _ step =>
    have answered := answers request state state'
    rw [Dialogue.run, Dialogue.run]
    generalize (handler.answer request).run.run state = ran at answered ⊢
    generalize (handler'.answer (request.map image)).run.run state' = ran' at answered ⊢
    obtain ⟨outcome, after⟩ := ran
    obtain ⟨outcome', after'⟩ := ran'
    cases outcome with
    | ok answer =>
      obtain rfl : outcome' = .ok (request.mapAnswer image answer) := answered
      exact step answer after after'
    | error error =>
      obtain rfl : outcome' = .error (errors error) := answered
      rfl

end Dialogue

namespace Parser

/-- Holds of two parsers that lead from every cursor to a dialogue and to the same with the images
of its values. -/
def Maps (image : α → β) (results : γ → δ) (parser : Parser α γ) (parser' : Parser β δ) : Prop :=
  ∀ cursor, (parser cursor).Maps image results (parser' cursor)

variable {image : α → β} {results : γ → δ}

theorem Maps.bind {results' : γ' → δ'} {parser : Parser α γ} {parser' : Parser β δ}
    {next : γ → Parser α γ'} {next' : δ → Parser β δ'} (first : Maps image results parser parser')
    (rest : ∀ value, Maps image results' (next value) (next' (results value))) :
    Maps image results' (parser >>= next) (parser' >>= next') :=
  fun cursor => (first cursor).andThen rest

/-- A parser whose result is no value, and what comes after it. -/
theorem Maps.bind_same {parser : Parser α γ'} {parser' : Parser β γ'} {next : γ' → Parser α γ}
    {next' : γ' → Parser β δ} (first : Maps image id parser parser')
    (rest : ∀ result, Maps image results (next result) (next' result)) :
    Maps image results (parser >>= next) (parser' >>= next') :=
  first.bind rest

theorem pure_maps (value : γ) :
    Maps image results (pure value : Parser α γ) (pure (results value)) :=
  fun cursor => .result value cursor

theorem refuse_maps (error : ParseError) :
    Maps image results (refuse error : Parser α γ) (refuse error) :=
  fun cursor => .refusal error cursor

theorem ask_maps (request : Request α) :
    Maps image (request.mapAnswer image) (ask request) (ask (request.map image)) :=
  fun cursor => .ask fun answer => .result answer cursor

/-! ### Parsers without values -/

theorem cursor_maps : Maps image id (cursor : Parser α Cursor) cursor :=
  fun cursor => .result cursor cursor

theorem move_maps (change : Cursor → Cursor) :
    Maps image id (move change : Parser α Unit) (move change) :=
  fun cursor => .result () (change cursor)

theorem advance_maps : Maps image id (advance : Parser α Unit) advance := by
  intro cursor
  unfold advance
  rcases cursor.tape.next with ⟨⟨start, error | token⟩, tape⟩
  · exact .refusal error _
  · exact .result () _

theorem consume_maps : Maps image id (consume : Parser α Unit) consume :=
  (move_maps _).bind_same fun _ => advance_maps

theorem unexpected_maps (expected : Expected) :
    Maps image results (unexpected expected : Parser α γ) (unexpected expected) := by
  intro cursor
  rw [unexpected_eq, unexpected_eq]
  exact .refusal _ cursor

theorem expect_maps (token : Token) (expected : Expected) :
    Maps image id (expect token expected : Parser α Unit) (expect token expected) := by
  refine cursor_maps.bind_same fun cursor => ?_
  by_cases there : cursor.token = token
  · rw [if_pos there, if_pos there]
    exact advance_maps
  · rw [if_neg there, if_neg there]
    exact unexpected_maps expected

theorem operator?_maps (rule : Rule) :
    Maps image id (operator? rule : Parser α (Option Operator)) (operator? rule) := by
  refine cursor_maps.bind_same fun cursor => ?_
  cases cursor.token with
  | operator operator =>
    by_cases member : operator ∈ rule.operators
    · simp only [if_pos member]
      exact advance_maps.bind_same fun _ => pure_maps (some operator)
    · simp only [if_neg member]
      exact pure_maps none
  | _ => exact pure_maps none

theorem ahead_maps : Maps image id (ahead : Parser α (List Scanned)) ahead :=
  cursor_maps.bind_same fun cursor => pure_maps (cursor.tape.last :: cursor.tape.items)

theorem names_maps (bound : List Scanned) (before : List String) :
    Maps image id (names bound before : Parser α (List String)) (names bound before) := by
  induction bound generalizing before with
  | nil => exact pure_maps before.reverse
  | cons item bound step =>
    refine cursor_maps.bind_same fun cursor => ?_
    by_cases dot : cursor.token = .dot
    · rw [if_pos dot, if_pos dot]
      refine advance_maps.bind_same fun _ => cursor_maps.bind_same fun after => ?_
      cases after.token with
      | name letters => exact consume_maps.bind_same fun _ => step (letters :: before)
      | _ => exact unexpected_maps .segment
    · rw [if_neg dot, if_neg dot]
      exact pure_maps before.reverse

/-! ### Operands -/

section Inner

variable {expression : Parser α α} {expression' : Parser β β}
  (inner : Maps image image expression expression')

include inner

theorem moreArguments_maps (bound : List Scanned) (before : List α) :
    Maps image (List.map image) (moreArguments expression bound before)
      (moreArguments expression' bound (before.map image)) := by
  induction bound generalizing before with
  | nil =>
    rw [moreArguments, moreArguments, ← List.map_reverse]
    exact pure_maps before.reverse
  | cons item bound step =>
    refine cursor_maps.bind_same fun cursor => ?_
    by_cases comma : cursor.token = .comma
    · rw [if_pos comma, if_pos comma]
      exact advance_maps.bind_same fun _ => inner.bind fun argument => step (argument :: before)
    · rw [if_neg comma, if_neg comma, ← List.map_reverse]
      exact pure_maps before.reverse

theorem arguments_maps :
    Maps image (List.map image) (arguments expression) (arguments expression') := by
  have closed (values : List α) : Maps image (List.map image)
      (do expect .closeParen .separatorOrClosing; pure values : Parser α (List α))
      (do expect .closeParen .separatorOrClosing; pure (values.map image)) :=
    (expect_maps .closeParen .separatorOrClosing).bind_same fun _ => pure_maps values
  refine cursor_maps.bind_same fun cursor => ?_
  by_cases close : cursor.token = .closeParen
  · rw [if_pos close, if_pos close]
    exact (pure_maps []).bind closed
  · rw [if_neg close, if_neg close]
    exact inner.bind fun first => ahead_maps.bind_same fun bound =>
      (moreArguments_maps inner bound [first]).bind closed

theorem arguments?_maps :
    Maps image (Option.map (List.map image)) (arguments? expression) (arguments? expression') := by
  refine cursor_maps.bind_same fun cursor => ?_
  by_cases opens : cursor.token = .openParen
  · rw [if_pos opens, if_pos opens]
    exact advance_maps.bind_same fun _ => (arguments_maps inner).bind fun values =>
      pure_maps (some values)
  · rw [if_neg opens, if_neg opens]
    exact pure_maps none

theorem atom_maps : Maps image image (atom expression) (atom expression') := by
  refine cursor_maps.bind_same fun cursor => ?_
  cases cursor.token with
  | number lexeme =>
    exact consume_maps.bind_same fun _ => (ask_maps (.number lexeme)).bind fun value =>
      ask_maps (.atom (.literal value))
  | text content =>
    exact consume_maps.bind_same fun _ => (ask_maps (.text content)).bind fun value =>
      ask_maps (.atom (.literal value))
  | name first =>
    have called (segments : List String) : Maps image id
        (ask (.reference segments) : Parser α Reference) (ask (.reference segments)) :=
      ask_maps (.reference segments)
    exact consume_maps.bind_same fun _ => ahead_maps.bind_same fun bound =>
      (names_maps bound [first]).bind_same fun segments => (called segments).bind_same fun target =>
        (arguments?_maps inner).bind fun arguments => ask_maps (.atom (.reference target arguments))
  | openParen =>
    exact consume_maps.bind_same fun _ => inner.bind fun value =>
      (expect_maps .closeParen .closing).bind_same fun _ => ask_maps (.atom (.group value))
  | _ => exact unexpected_maps .expression

/-! ### Layers -/

theorem chain_maps (rule : Rule) (bound : List Scanned) (before : List (String × α)) :
    Maps image (List.map (Prod.map id image)) (chain rule expression bound before)
      (chain rule expression' bound (before.map (Prod.map id image))) := by
  induction bound generalizing before with
  | nil =>
    rw [chain, chain, ← List.map_reverse]
    exact pure_maps before.reverse
  | cons item bound step =>
    refine (operator?_maps rule).bind_same fun found => ?_
    cases found with
    | some operator =>
      exact inner.bind fun value => step ((operator.symbol, value) :: before)
    | none =>
      dsimp only [id]
      rw [← List.map_reverse]
      exact pure_maps before.reverse

end Inner

theorem layers_maps {deeper : List Rule → Parser α α} {deeper' : List Rule → Parser β β}
    (inner : ∀ rules, Maps image image (deeper rules) (deeper' rules)) (rules : List Rule) :
    Maps image image (layers deeper rules) (layers deeper' rules) := by
  induction rules with
  | nil => exact atom_maps (inner Rule.precedence)
  | cons rule tighter step =>
    unfold layers
    cases rule.kind with
    | binary =>
      exact step.bind fun first => ahead_maps.bind_same fun bound =>
        (chain_maps step rule bound []).bind fun rest =>
          ask_maps (.reduce rule (.binary first rest))
    | unary =>
      refine (operator?_maps rule).bind_same fun found => ?_
      cases found with
      | some operator =>
        exact (inner (rule :: tighter)).bind fun operand =>
          ask_maps (.reduce rule (.unary operator.symbol operand))
      | none => exact step.bind fun operand => ask_maps (.reduce rule (.passthrough operand))

/-! ### Whole texts -/

theorem nested_maps (limit room : Nat) (rules : List Rule) :
    Maps image image (nested limit room rules) (nested limit room rules) := by
  induction room generalizing rules with
  | zero =>
    exact cursor_maps.bind_same fun cursor => refuse_maps ⟨.nestingTooDeep limit, cursor.start⟩
  | succ room deeper =>
    exact (move_maps _).bind_same fun _ => (layers_maps deeper rules).bind fun value =>
      (move_maps _).bind_same fun _ => pure_maps value

theorem complete_maps (limit : Nat) : Maps image image (complete limit) (complete limit) := by
  have expression_maps : Maps image image (expression limit) (expression limit) :=
    cursor_maps.bind_same fun cursor => nested_maps limit (limit - cursor.depth) Rule.precedence
  exact expression_maps.bind fun value =>
    (expect_maps .endOfInput .endOfInput).bind_same fun _ => pure_maps value

end Parser

/-- The dialogues of a text with values of two types make the same steps, on whatever values. -/
theorem Dialogue.ofText_maps (image : α → β) (text : String) (options : Options) :
    (ofText text options : Dialogue α α).Maps image image (ofText text options) :=
  (Parser.advance_maps.bind_same fun _ => Parser.complete_maps options.depthLimit)
    (.before text options)

end Formula
