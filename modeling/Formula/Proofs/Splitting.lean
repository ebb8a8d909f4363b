/-
**Splitting a text into expressions.**

A parser that is asked for one expression after another takes the tokens of a text apart from left
to right. Each time it takes the tokens of an expression that can go on no further: what follows is
no operator between two operands and, after a name, neither a point nor an opening parenthesis.
There is one such expression at most, and the parser is left at the token after it.

* `Derivation.Splits`: the expressions that are split off.
* `Parsing.parse_eq_step`: a parse is one step.
* `Parsing.step_ok`: what a step that goes well has passed over.
* `Parsing.steps_ok`: what steps that go well have passed over, one after another.
* `Parsing.step_of_splits`: an expression that can be split off is read.
* `Parsing.expressions_split`: the text of a parser, in segments.
-/

import Formula.Parsing
import Formula.Proofs.Calls
import Formula.Proofs.Grammar.Ends
import Formula.Proofs.Nesting
import Formula.Proofs.Respelling

namespace Formula

variable {σ ε α : Type}

/-! ### Along a text -/

namespace Cursor

variable {lexing : Lexing} {stop index : Nat} {cursor last : Cursor} {tokens rest : List Token}

/-- The token at a cursor is the first of those that are left. -/
theorem At.token_eq_headD (here : cursor.At lexing stop index) :
    cursor.token = (lexing.spelled.drop index).headD .endOfInput := by
  rw [here.token, List.headD_eq_head?_getD, List.head?_drop]

/-- The tokens that are ahead can be passed over. -/
theorem At.passes (here : cursor.At lexing stop index)
    (ahead : lexing.spelled.drop index = tokens ++ rest) (more : Token.endOfInput ∉ tokens) :
    ∃ last, cursor.Passes tokens last ∧ last.At lexing stop (index + tokens.length) ∧
      lexing.spelled.drop (index + tokens.length) = rest := by
  induction tokens generalizing cursor index with
  | nil => exact ⟨cursor, cursor.passes_nil, here, ahead⟩
  | cons token tokens step =>
    rw [List.mem_cons, not_or] at more
    have token_here : cursor.token = token := by
      rw [here.token_eq_headD, ahead]
      rfl
    obtain ⟨after, next, there⟩ := here.next
    rw [if_neg (token_here ▸ Ne.symm more.1)] at there
    have ahead_there : lexing.spelled.drop (index + 1) = tokens ++ rest := by
      rw [← List.tail_drop, ahead]
      rfl
    obtain ⟨last, passes, at_last, left⟩ := step there ahead_there more.2
    rw [List.length_cons, Nat.add_comm tokens.length, ← Nat.add_assoc]
    exact ⟨last, ⟨token_here, after, next, passes⟩, at_last, left⟩

/-- The tokens that are passed over were ahead. -/
theorem At.of_passes (here : cursor.At lexing stop index) (passes : cursor.Passes tokens last)
    (more : Token.endOfInput ∉ tokens) :
    last.At lexing stop (index + tokens.length) ∧
      lexing.spelled.drop index = tokens ++ lexing.spelled.drop (index + tokens.length) := by
  induction tokens generalizing cursor index with
  | nil => exact ⟨passes ▸ here, rfl⟩
  | cons token tokens step =>
    rw [List.mem_cons, not_or] at more
    obtain ⟨token_here, after, next, rest⟩ := passes
    obtain ⟨after', next', there⟩ := here.next
    cases next.symm.trans next'
    have found : cursor.token ≠ .endOfInput := token_here ▸ Ne.symm more.1
    rw [if_neg found] at there
    obtain ⟨at_last, ahead⟩ := step there rest more.2
    have first : lexing.spelled[index]? = some token := by
      rw [Lexing.spelled, List.getElem?_map, (here.of_token found).1, ← token_here]
      rfl
    rw [List.length_cons, Nat.add_comm tokens.length, ← Nat.add_assoc]
    refine ⟨at_last, ?_⟩
    rw [List.drop_eq_getElem?_toList_append, first, ahead]
    rfl

end Cursor

/-! ### Splitting off an expression -/

namespace Derivation

/-- Holds of an expression that a stream of tokens begins with, nested within a limit, where it ends
before the rest: the next token is no operator between two operands and, after a name, neither a
point nor an opening parenthesis. -/
structure Splits (limit : Nat) (tokens rest : List Token) (derivation : Derivation .expression) :
    Prop where
  spelled : tokens = derivation.tokens ++ rest
  nesting : derivation.nesting ≤ limit
  operator : ∀ operator ∈ Operator.between, rest.headD .endOfInput ≠ .operator operator
  name : (rest.headD .endOfInput).NoReference derivation.tokens

/-- Holds of expressions that are split off one after another. -/
def Segments (limit : Nat) : List (Derivation .expression) → List Token → List Token → Prop
  | [], tokens, rest => tokens = rest
  | first :: more, tokens, rest =>
    ∃ middle, first.Splits limit tokens middle ∧ Segments limit more middle rest

variable {limit : Nat} {tokens rest rest' : List Token} {derivation other : Derivation .expression}

theorem splits_iff :
    derivation.Splits limit tokens rest ↔
      derivation.Reads tokens rest ∧ derivation.nesting ≤ limit := by
  constructor
  · rintro ⟨spelled, nesting, operator, name⟩
    exact ⟨⟨spelled, (derivation.endsBefore_iff _).mpr ⟨operator, name⟩⟩, nesting⟩
  · rintro ⟨⟨spelled, ends⟩, nesting⟩
    obtain ⟨operator, name⟩ := (derivation.endsBefore_iff _).mp ends
    exact ⟨spelled, nesting, operator, name⟩

/-- At most one expression is split off. -/
theorem Splits.unique (splits : derivation.Splits limit tokens rest)
    (also : other.Splits limit tokens rest') : other = derivation ∧ rest' = rest :=
  (splits_iff.mp also).1.unique Phrase.expression_ordered (splits_iff.mp splits).1

/-- Segments are put together to what they were split off. -/
theorem Segments.spelled {segments : List (Derivation .expression)}
    (split : Segments limit segments tokens rest) :
    tokens = segments.flatMap Derivation.tokens ++ rest := by
  induction segments generalizing tokens with
  | nil => exact split
  | cons first more step =>
    obtain ⟨middle, splits, split⟩ := split
    rw [splits.spelled, step split, List.flatMap_cons, List.append_assoc]

end Derivation

/-! ### Steps -/

theorem Handler.Answers.recorded {handler : Handler σ ε α} (answers : handler.Answers) :
    handler.recorded.Answers := by
  intro request produced record
  obtain ⟨value, after, answered⟩ := answers request produced record.state
  rw [handler.recorded_answer, answered]
  exact ⟨value, _, rfl⟩

/-- Holds of a cursor between two steps, after so many tokens of a text. -/
structure Cursor.Between (lexing : Lexing) (stop index : Nat) (cursor : Cursor) : Prop where
  here : cursor.At lexing stop index
  readable : cursor.All Token.Readable
  depth : cursor.depth = 0

/-- Holds of a cursor after a step that has split an expression off what is left after so many
tokens of a text. -/
def Cursor.Beyond (lexing : Lexing) (stop index limit : Nat) (cursor : Cursor) : Prop :=
  ∃ derivation : Derivation .expression,
    derivation.Splits limit (lexing.spelled.drop index)
        (lexing.spelled.drop (index + derivation.tokens.length)) ∧
      cursor.Between lexing stop (index + derivation.tokens.length)

namespace Parsing

/-- The calls of the handler that a step makes. -/
def calls (handler : Handler σ ε α) (limit : Nat) (parsing : Parsing σ) (step : Parser.Step) :
    List (Call ε α) :=
  (Parsing.step handler.recorded limit ⟨parsing.cursor, ⟨parsing.state, []⟩⟩ step).2.state.calls

/-- To parse a text is to make one step with its parser. -/
theorem parse_eq_step (handler : Handler σ ε α) (text : String) (options : Options) (state : σ) :
    parse handler text options state =
      match ofText? text options state with
      | .error error => (.error (handler.ofError (.refused error)), state)
      | .ok first =>
        ((first.step handler options.depthLimit .complete).1,
          (first.step handler options.depthLimit .complete).2.state) := by
  rw [parse, ofText?]
  cases Cursor.ofText? text options <;> rfl

variable {lexing : Lexing} {stop index limit : Nat} {handler : Handler σ ε α}

/-- Asked for an expression, a parser splits one off, or refuses. -/
theorem expression_meets {cursor : Cursor} (between : cursor.Between lexing stop index) :
    (Parser.expression limit cursor : Dialogue α α).Meets
      (fun _ request => request.From Token.Readable)
      (fun _ last => last.Beyond lexing stop index limit) (fun _ _ => True) := by
  obtain ⟨here, readable, depth⟩ := between
  have reads := @Parser.nested_reads α _ limit (limit - cursor.depth) _ Rule.precedence_nodup
    cursor here.placed readable
  rw [Parser.expression, Parser.meets_bind, Parser.meets_cursor]
  refine reads.mono ?_ fun _ _ _ => trivial
  rintro _ last ⟨_, -, -, derivation, passes, ends, level⟩
  obtain ⟨there, ahead⟩ := here.of_passes passes derivation.endOfInput_not_mem
  rw [there.token_eq_headD] at ends
  have nesting : derivation.nesting ≤ limit := Nat.le_trans level (Nat.sub_le _ _)
  exact ⟨derivation, Derivation.splits_iff.mpr ⟨⟨ahead, ends⟩, nesting⟩,
    there, readable.passes passes, passes.depth.trans depth⟩

/-- A step splits an expression off, or is refused. -/
theorem step_meets {cursor : Cursor} (between : cursor.Between lexing stop index)
    (step : Parser.Step) :
    (step.parser limit cursor : Dialogue α α).Meets (fun _ request => request.From Token.Readable)
      (fun _ last => last.Beyond lexing stop index limit) (fun _ _ => True) := by
  cases step with
  | expression => exact expression_meets between
  | complete =>
    rw [Parser.Step.parser, Parser.complete, Parser.meets_bind]
    refine (expression_meets between).mono ?_ fun _ _ _ => trivial
    rintro value last ⟨derivation, splits, there, readable, depth⟩
    rw [Parser.meets_bind]
    refine Parser.meets_expect (fun after ended next => ?_) (fun _ _ _ _ _ => trivial)
      fun _ => trivial
    -- At the end of the input the next token is the end of the input again.
    obtain ⟨after', next', beyond⟩ := there.next
    cases next.symm.trans next'
    rw [if_pos ended] at beyond
    exact ⟨derivation, splits, beyond, readable.next next, (Cursor.next_depth next).trans depth⟩

/-- A step that goes well has split an expression off. -/
theorem step_ok {parsing : Parsing σ} (between : parsing.cursor.Between lexing stop index)
    {step : Parser.Step} (ok : (parsing.step handler limit step).1.isOk = true) :
    (parsing.step handler limit step).2.cursor.Beyond lexing stop index limit := by
  have meets := @step_meets α _ _ _ limit _ between step
  rw [Parsing.step] at ok ⊢
  rcases meets.run handler parsing.state with
    ⟨value, -, beyond⟩ | ⟨error, refused, -⟩ | ⟨request, error, state', -, -, failed⟩
  · exact beyond
  · rw [refused] at ok
    cases ok
  · rw [failed] at ok
    cases ok

/-- Steps that go well have passed over segments of the text, one each. -/
theorem steps_ok {parsing : Parsing σ} (between : parsing.cursor.Between lexing stop index)
    {steps : List Parser.Step}
    (ok : ∀ outcome ∈ (parsing.steps handler limit steps).1, outcome.isOk = true) :
    ∃ segments : List (Derivation .expression), segments.length = steps.length ∧
      Derivation.Segments limit segments (lexing.spelled.drop index)
        (lexing.spelled.drop (index + (segments.flatMap Derivation.tokens).length)) ∧
      (parsing.steps handler limit steps).2.cursor.Between lexing stop
        (index + (segments.flatMap Derivation.tokens).length) := by
  induction steps generalizing parsing index with
  | nil => exact ⟨[], rfl, rfl, between⟩
  | cons step steps rest =>
    obtain ⟨first_ok, later⟩ := List.forall_mem_cons.mp ok
    obtain ⟨first, splits, there⟩ := step_ok between first_ok
    obtain ⟨segments, count, split, reached⟩ := rest there later
    refine ⟨first :: segments, congrArg Nat.succ count, ?_⟩
    rw [List.flatMap_cons, List.length_append, ← Nat.add_assoc]
    exact ⟨⟨_, splits, split⟩, reached⟩

/-- An expression that can be split off is read, and the parser is left at what comes after it. -/
theorem step_of_splits {parsing : Parsing σ} (between : parsing.cursor.Between lexing stop index)
    (answers : handler.Answers) {derivation : Derivation .expression} {rest : List Token}
    (splits : derivation.Splits limit (lexing.spelled.drop index) rest) :
    let made := parsing.step handler limit .expression
    made.1.isOk = true ∧
      (made.1, made.2.state) = (derivation.perform handler.answer).run.run parsing.state ∧
      made.2.cursor.Between lexing stop (index + derivation.tokens.length) ∧
      lexing.spelled.drop (index + derivation.tokens.length) = rest := by
  obtain ⟨last, passes, there, left⟩ :=
    between.here.passes splits.spelled derivation.endOfInput_not_mem
  have ends : derivation.EndsBefore last.token := by
    rw [there.token_eq_headD, left]
    exact (Derivation.splits_iff.mp splits).1.2
  have placed := between.here.placed
  have expression : (Parser.expression limit parsing.cursor : Dialogue α α) =
      Parser.nested limit (limit - 0) Rule.precedence parsing.cursor := by
    rw [← between.depth]
    rfl
  -- The parser walks along the tokens, and none of them is too deep.
  have walks := (derivation.walkable α limit Phrase.expression_ordered).nested placed passes ends
    (Nat.zero_le limit)
  rw [← expression] at walks
  have meets := walks.and (expression_meets between)
  have read : (parsing.step handler limit .expression).1.isOk = true ∧
      (parsing.step handler limit .expression).2.cursor = last := by
    rcases meets.run handler parsing.state with
      ⟨value, outcome, ⟨reached, -⟩, -⟩ | ⟨error, -, deep, -⟩ | ⟨request, _, state, asks, failed, -⟩
    · exact ⟨congrArg Except.isOk outcome, reached⟩
    · exact absurd (derivation.leveled_within.mpr splits.nesting) deep.not_within
    · obtain ⟨value, after, answered⟩ := answers request asks.2 state
      rw [answered] at failed
      cases failed
  have held : (Parser.nested limit (limit - 0) Rule.precedence parsing.cursor).hold handler = _ :=
    (derivation.follows handler limit Phrase.expression_ordered).nested placed passes ends
      splits.nesting
  rw [← expression] at held
  have run := Dialogue.run_hold handler (Parser.expression limit parsing.cursor) parsing.state
  simp only [held, bind_assoc, pure_bind, bind_pure] at run
  refine ⟨read.1, run, ?_, left⟩
  rw [read.2]
  exact ⟨there, between.readable.passes passes, passes.depth.trans between.depth⟩

/-- The calls of a step that reads an expression are those of its derivation. -/
theorem calls_of_splits {parsing : Parsing σ} (between : parsing.cursor.Between lexing stop index)
    (answers : handler.Answers) {derivation : Derivation .expression} {rest : List Token}
    (splits : derivation.Splits limit (lexing.spelled.drop index) rest) :
    parsing.calls handler limit .expression =
      ((derivation.perform handler.recorded.answer).run.run ⟨parsing.state, []⟩).2.calls := by
  have recorded := @step_of_splits _ _ _ _ _ _ _ _ ⟨parsing.cursor, ⟨parsing.state, []⟩⟩ between
    answers.recorded _ _ splits
  rw [calls, ← recorded.2.1]

/-- **Successive expressions split a text.** Let the text of a parser be readable to its end, and
let all steps so far have gone well, with a handler that answers whatever the grammar produces. They
have passed over segments of the tokens, one each, and over no others. The parser reads a next
expression exactly if one can be split off what is left. There is only one, the handler gets the
calls of its derivation and no others, and the parser is left at the token after it, as deep as it
was. -/
theorem expressions_split (handler : Handler σ ε α) (answers : handler.Answers) (text : String)
    (options : Options) (state : σ)
    (readable : (Lexing.ofText text options.comments).ending.isOk = true) :
    let lexing := Lexing.ofText text options.comments
    let limit := options.depthLimit
    ∃ first : Parsing σ, ofText? text options state = .ok first ∧
      ∀ steps : List Parser.Step,
        (∀ outcome ∈ (first.steps handler limit steps).1, outcome.isOk = true) →
        ∃ segments : List (Derivation .expression),
          let passed := (segments.flatMap Derivation.tokens).length
          let left := lexing.spelled.drop passed
          let before := (first.steps handler limit steps).2
          let made := before.step handler limit .expression
          segments.length = steps.length ∧ Derivation.Segments limit segments lexing.spelled left ∧
            lexing.spelled = segments.flatMap Derivation.tokens ++ left ∧
            before.cursor.token = left.headD .endOfInput ∧
            (lexing.starts text.utf8ByteSize)[passed]? = some before.cursor.start ∧
            before.cursor.depth = 0 ∧
            (made.1.isOk = true ↔ ∃ derivation rest, Derivation.Splits limit left rest derivation) ∧
            ∀ derivation rest, Derivation.Splits limit left rest derivation →
              (∀ other rest', Derivation.Splits limit left rest' other → other = derivation) ∧
              (made.1, made.2.state) =
                (derivation.perform handler.answer).run.run before.state ∧
              before.calls handler limit .expression =
                ((derivation.perform handler.recorded.answer).run.run ⟨before.state, []⟩).2.calls ∧
              made.2.cursor.token = rest.headD .endOfInput ∧
              (lexing.starts text.utf8ByteSize)[passed + derivation.tokens.length]? =
                some made.2.cursor.start ∧
              made.2.cursor.depth = before.cursor.depth := by
  intro lexing limit
  have ending : lexing.ending = .ok text.utf8ByteSize := by
    cases ends : lexing.ending with
    | ok stop => rw [Lexing.ofText_ending ends]
    | error error =>
      rw [ends] at readable
      cases readable
  obtain ⟨cursor, found, depth, here⟩ := Cursor.at_of_text ending
  refine ⟨⟨cursor, state⟩, by rw [ofText?, found]; rfl, fun steps ok => ?_⟩
  have start : cursor.Between lexing text.utf8ByteSize 0 :=
    ⟨here, Cursor.ofText?_readable found, depth⟩
  obtain ⟨segments, count, split, between⟩ := @steps_ok _ _ _ _ _ _ _ _ ⟨cursor, state⟩ start _ ok
  rw [List.drop_zero, Nat.zero_add] at split
  rw [Nat.zero_add] at between
  refine ⟨segments, count, split, split.spelled, between.here.token_eq_headD, between.here.start,
    between.depth, ⟨fun read => ?_, ?_⟩, fun derivation rest splits => ?_⟩
  · obtain ⟨derivation, splits, -⟩ := step_ok between read
    exact ⟨derivation, _, splits⟩
  · rintro ⟨derivation, rest, splits⟩
    exact (step_of_splits between answers splits).1
  · obtain ⟨-, performed, after, rfl⟩ := step_of_splits between answers splits
    exact ⟨fun other rest' also => (splits.unique also).1, performed,
      calls_of_splits between answers splits, after.here.token_eq_headD, after.here.start,
      after.depth.trans between.depth.symm⟩

/-- After a call that a name follows, the name is read, and the parser is left at the end. -/
theorem expressions_split_call_and_name :
    ∃ first : Parsing Unit, ofText? "f(x) b" {} () = .ok first ∧
      let before := (first.steps (Builder.tree id).handler 32 [.expression]).2
      let made := before.step (Builder.tree id).handler 32 .expression
      made.1.isOk = true ∧ made.2.cursor.token = .endOfInput := by
  obtain ⟨first, found, split⟩ := expressions_split (Builder.tree id).handler
    (fun _ produced => (Builder.total_tree id).answers produced) "f(x) b" {} () (by decide +kernel)
  have good : (ofText? "f(x) b" {} ()).toOption.map (fun first =>
      (first.steps (Builder.tree id).handler 32 [.expression]).1.all Except.isOk) = some true := by
    decide +kernel
  rw [found] at good
  obtain ⟨segments, count, segmented, -, -, -, -, read, after⟩ :=
    split [.expression] (List.all_eq_true.mp (Option.some.inj good))
  let argument := Derivation.alone (.reference "x" .lastName .uncalled) Rule.precedence
  let arguments := Derivation.called (.someArguments argument .lastArgument)
  let call := Derivation.alone (.reference "f" .lastName arguments) Rule.precedence
  let name := Derivation.alone (.reference "b" .lastName .uncalled) Rule.precedence
  have call_splits : call.Splits 32 (Lexing.ofText "f(x) b" true).spelled [.name "b"] := by
    refine ⟨by decide +kernel, by decide +kernel, by decide, fun letters last => ⟨nofun, nofun⟩⟩
  obtain ⟨only, rfl⟩ := List.length_eq_one_iff.mp count
  obtain ⟨middle, only_splits, rfl⟩ := segmented
  obtain ⟨rfl, left⟩ := call_splits.unique only_splits
  have name_splits : name.Splits 32 ((Lexing.ofText "f(x) b" true).spelled.drop
      ([call].flatMap Derivation.tokens).length) [] := by
    refine ⟨by decide +kernel, by decide +kernel, by decide, fun letters last => ⟨nofun, nofun⟩⟩
  exact ⟨first, found, read.mpr ⟨name, [], name_splits⟩, (after name [] name_splits).2.2.2.1⟩

end Parsing

end Formula
