/-
**Whole texts.**

A text is read along its tokens. If they are spelled by an expression that is not too deep, the
parse makes the requests of the derivation and has their result (`parse_of_derivation`). Else it
ends at the first request that the handler fails on, or it refuses the text for what its tokens are
(`Lexing.Refused`): they stop being a beginning of an expression, they end too early, or they end in
what is no token.

* `parse_of_derivation`: the parse of an expression.
* `parse_cases`: how every parse ends.
-/

import Formula.Compile
import Formula.Proofs.Parser.Completeness
import Formula.Proofs.Parser.Soundness
import Formula.Proofs.Refused
import Formula.Proofs.Scanner

namespace Formula

variable {σ ε α : Type}

/-! ### The end of the input -/

/-- The end of the input is no part of anything derived. -/
theorem Derivation.endOfInput_not_mem {phrase : Phrase} (derivation : Derivation phrase) :
    Token.endOfInput ∉ derivation.tokens := by
  induction derivation <;> simp_all [tokens]

theorem Phrase.Viable.endOfInput_not_mem {phrase : Phrase} {tokens : List Token}
    (viable : phrase.Viable tokens) : Token.endOfInput ∉ tokens := by
  obtain ⟨derivation, rest, spelled⟩ := viable
  exact fun inside =>
    derivation.endOfInput_not_mem (spelled ▸ List.mem_append_left rest inside)

/-- At the end of the input the next reading is the end of the input again. -/
theorem Cursor.Placed.next_of_end {cursor : Cursor} (placed : cursor.Placed)
    (ended : cursor.token = .endOfInput) : ∃ after, cursor.next = .ok after := by
  obtain ⟨token, start, ⟨items, ⟨begin, outcome⟩⟩, depth⟩ := cursor
  obtain ⟨nothing, again⟩ := placed.atEnd ended
  cases nothing
  cases again
  exact ⟨_, rfl⟩

/-! ### Expressions -/

/-- Holding the parser of a whole text makes the requests of its derivation. -/
theorem Parser.hold_complete (handler : Handler σ ε α) {limit : Nat}
    (derivation : Derivation .expression) {cursor last : Cursor} (placed : cursor.Placed)
    (passes : cursor.Passes derivation.tokens last) (ended : last.token = .endOfInput)
    (nesting : derivation.nesting ≤ limit - cursor.depth) :
    (do return (← (complete limit cursor).hold handler).1 : Action σ ε α) =
      derivation.perform handler.answer := by
  obtain ⟨after, next⟩ := (placed.passes passes).next_of_end ended
  have ends : derivation.EndsBefore last.token := by
    rw [ended]
    exact derivation.endsBefore Phrase.expression_ordered trivial
  have read : (nested limit (limit - cursor.depth) Rule.precedence cursor).hold handler = _ :=
    (derivation.follows handler limit Phrase.expression_ordered).nested placed passes ends nesting
  simp only [complete, expression, hold_bind, hold_cursor, pure_bind, read,
    hold_expect handler ended next, hold_pure, bind_assoc, bind_pure]

/-- A text that is spelled by an expression makes its requests, and has their result. -/
theorem parse_of_derivation (handler : Handler σ ε α) {text : String} {options : Options}
    (derivation : Derivation .expression)
    (spells : (Lexing.ofText text options.comments).Spells derivation.tokens)
    (nesting : derivation.nesting ≤ options.depthLimit) (state : σ) :
    parse handler text options state = (derivation.perform handler.answer).run.run state := by
  obtain ⟨cursor, last, found, placed, depth, passes, ended⟩ := spells.passes
  rw [parse, found, ← Parser.hold_complete handler derivation placed passes ended (by rwa [depth]),
    ← Dialogue.run_hold]

/-- Every number of a text that is spelled by a derivation has a value. -/
theorem Derivation.readable {text : String} {options : Options} {phrase : Phrase}
    {derivation : Derivation phrase}
    (spells : (Lexing.ofText text options.comments).Spells derivation.tokens) :
    ∀ token ∈ derivation.tokens, token.Readable := by
  obtain ⟨cursor, last, found, -, -, passes, -⟩ := spells.passes
  exact (Cursor.ofText?_readable found).passed passes

/-! ### Refused texts -/

namespace Parser

/-- What is refused within an expression is refused for the tokens of the text. -/
theorem refused_of_refusal {limit : Nat} {cursor : Cursor} (placed : cursor.Placed)
    {error : ParseError} (refusal : Refusal limit .expression cursor error) :
    cursor.lexing.Refused limit error := by
  cases refusal with
  | tooDeep position => exact .tooDeep position
  | @unexpected seen stuck expected passes viable blocked =>
    obtain ⟨passed, rfl, ahead⟩ := passes.lexing placed viable.endOfInput_not_mem
    by_cases ended : stuck.token = .endOfInput
    · rw [Cursor.lexing_of_end ended, List.append_nil] at ahead
      rw [Cursor.refusal_of_end expected ended]
      have all_spelled : cursor.lexing.spelled = passed.map Located.token := by
        rw [Lexing.spelled, ahead]
      refine .unfinished ⟨by rw [ahead], all_spelled ▸ viable, ?_, expected, rfl⟩
      intro derivation spelled
      rw [all_spelled] at spelled
      refine blocked derivation [] [stuck.token] ⟨by rw [spelled, List.append_nil], ?_⟩
      exact derivation.endsBefore Phrase.expression_ordered (by rw [ended]; trivial)
    · rw [Cursor.lexing_of_token ended] at ahead
      rw [Cursor.refusal_of_token expected ended]
      have split := congrArg Lexing.tokens ahead
      exact .offending (Lexing.offending_of_split expected split viable blocked.not_viable)
  | @unreadable seen stuck error passes next viable =>
    have more := viable.endOfInput_not_mem
    rw [List.mem_append, not_or] at more
    obtain ⟨passed, rfl, ahead⟩ := passes.lexing placed more.1
    have here : stuck.token ≠ .endOfInput := fun ended => more.2 (ended ▸ List.mem_cons_self)
    rw [Cursor.lexing_of_token here, Cursor.lexing_next_error next] at ahead
    refine .unreadable ⟨by rw [ahead], ?_⟩
    rw [Lexing.spelled, ahead, List.map_append]
    exact viable

/-- The parser of a whole text reads an expression that spells its tokens, or refuses the text for
what they are. -/
theorem complete_meets {good : Token → Prop} (limit : Nat) {cursor : Cursor}
    (placed : cursor.Placed) (all : cursor.All good) :
    (complete limit cursor : Dialogue α α).Meets (fun _ request => request.From good)
      (fun _ _ => ∃ derivation : Derivation .expression, cursor.lexing.Spells derivation.tokens ∧
        derivation.nesting ≤ limit)
      (fun error _ => cursor.lexing.Refused limit error) := by
  have reads := @nested_reads α good limit (limit - cursor.depth) _ Rule.precedence_nodup cursor
    placed all
  rw [complete, meets_bind, expression, meets_bind, meets_cursor]
  refine reads.mono ?_ fun error _ refusal => refused_of_refusal placed refusal
  rintro value last ⟨_, rfl, -, derivation, passes, ends, level⟩
  obtain ⟨passed, spelled, ahead⟩ := passes.lexing placed derivation.endOfInput_not_mem
  have last_placed := placed.passes passes
  rw [meets_bind]
  refine meets_expect (fun after ended _ => ?_) (fun error ended next _ _ => ?_) fun other => ?_
  · rw [Cursor.lexing_of_end ended, List.append_nil] at ahead
    refine ⟨derivation, ⟨by rw [ahead]; exact spelled, by rw [ahead]; rfl⟩, ?_⟩
    exact Nat.le_trans level (Nat.sub_le _ _)
  · obtain ⟨after, next'⟩ := last_placed.next_of_end ended
    cases next.symm.trans next'
  · rw [Cursor.lexing_of_token other] at ahead
    rw [Cursor.refusal_of_token _ other]
    have split := congrArg Lexing.tokens ahead
    refine .offending
      (Lexing.offending_of_split .endOfInput split (spelled ▸ derivation.viable) ?_)
    rw [spelled]
    rintro ⟨longer, rest, spelled_longer⟩
    have longer_reads := longer.reads_tokens
    rw [spelled_longer, List.append_assoc] at longer_reads
    cases (ends.reads_eq Phrase.expression_ordered longer_reads).2

end Parser

/-- How every parse ends: with the value of an expression that spells the text, with a refusal for
what the tokens are, or with the failure of the handler on what the grammar produces. -/
theorem parse_cases (handler : Handler σ ε α) (text : String) (options : Options) (state : σ) :
    (∃ value, (parse handler text options state).1 = .ok value ∧
        ∃ derivation : Derivation .expression,
          (Lexing.ofText text options.comments).Spells derivation.tokens ∧
            derivation.nesting ≤ options.depthLimit) ∨
      (∃ error, (parse handler text options state).1 =
          .error (handler.ofError (.refused error)) ∧
        (Lexing.ofText text options.comments).Refused options.depthLimit error) ∨
      ∃ request error state', request.From Token.Readable ∧
        ((handler.answer request).run.run state').1 = .error error ∧
        (parse handler text options state).1 = .error error := by
  rw [parse]
  cases found : Cursor.ofText? text options with
  | error error =>
    refine .inr (.inl ⟨error, rfl, .unreadable ?_⟩)
    rw [Cursor.ofText?_error found]
    exact ⟨rfl, Phrase.viable_nil _⟩
  | ok cursor =>
    obtain ⟨placed, depth, lexing⟩ := Cursor.ofText?_ok found
    rw [← lexing]
    exact (Parser.complete_meets options.depthLimit placed (Cursor.ofText?_readable found)).run
      handler state

end Formula
