/-
**The limit of nesting.**

An expression compiles exactly within the levels it has. With a lower limit it is refused, at the
first of its tokens that lies deeper.

* `Parser.complete_walks`: the parser of a whole text walks along the tokens of its derivation.
* `Expression.ofText?_nesting`: what every limit makes of an expression.
-/

import Formula.Proofs.EarliestError
import Formula.Proofs.Parser.Depth

namespace Formula

variable {σ ε α : Type}

/-- The parser of a whole text takes an expression within the limit, and else refuses it at the
first token that is too deep. -/
theorem Parser.complete_walks {limit : Nat} (derivation : Derivation .expression)
    {cursor last : Cursor} (placed : cursor.Placed) (depth : cursor.depth = 0)
    (passes : cursor.Passes derivation.tokens last) (ended : last.token = .endOfInput) :
    (complete limit cursor : Dialogue α α).Meets (fun _ _ => True)
      (fun _ _ => derivation.nesting ≤ limit)
      (fun error _ => cursor.TooDeep limit (derivation.leveled 1) error) := by
  obtain ⟨after, next⟩ := (placed.passes passes).next_of_end ended
  have ends : derivation.EndsBefore last.token := by
    rw [ended]
    exact derivation.endsBefore Phrase.expression_ordered trivial
  have walks := (derivation.walkable α limit Phrase.expression_ordered).nested placed passes ends
    (Nat.zero_le limit)
  rw [complete, meets_bind, expression, meets_bind, meets_cursor, depth]
  refine walks.mono ?_ fun error _ deep => deep
  rintro value _ ⟨rfl, -, within⟩
  have fits : derivation.nesting ≤ limit := derivation.leveled_within.mp within
  rw [meets_bind]
  exact meets_expect (fun _ _ _ => fits) (fun error _ refused => by cases next.symm.trans refused)
    fun other => absurd ended other

/-- The first token that is too deep is the first one of its level, at its place in the text. -/
theorem Cursor.TooDeep.find {limit : Nat} {run : List (Token × Nat)} {cursor : Cursor}
    {error : ParseError} (deep : cursor.TooDeep limit run error) (placed : cursor.Placed)
    (spelled : cursor.lexing.spelled = run.map Prod.fst)
    (more : Token.endOfInput ∉ run.map Prod.fst) :
    ∃ token, (cursor.lexing.tokens.zip (run.map Prod.snd)).find? (·.2 == limit + 1) =
        some (token, limit + 1) ∧
      error = ⟨.nestingTooDeep limit, token.start⟩ := by
  obtain ⟨before, next, after, stuck, rfl, within, passes, rfl⟩ := deep
  rw [List.map_append, List.map_cons] at spelled more
  obtain ⟨passed, same, ahead⟩ :=
    passes.lexing placed fun inside => more (List.mem_append_left _ inside)
  have rest : stuck.lexing.spelled = next :: after.map Prod.fst := by
    rw [Lexing.spelled, ahead, List.map_append, same] at spelled
    exact List.append_cancel_left spelled
  have not_ended : stuck.token ≠ .endOfInput := by
    intro ended
    rw [Cursor.lexing_of_end ended] at rest
    cases rest
  have lengths : passed.length = (before.map Prod.snd).length := by
    rw [← List.length_map (f := Located.token), same, List.length_map, List.length_map]
  refine ⟨⟨stuck.start, stuck.token⟩, ?_, rfl⟩
  rw [ahead, Cursor.lexing_of_token not_ended, List.map_append, List.map_cons,
    List.zip_append lengths, List.zip_cons_cons, List.find?_eq_some_iff_append]
  refine ⟨beq_self_eq_true _, _, _, rfl, ?_⟩
  intro token inside
  obtain ⟨token', member, level⟩ := List.mem_map.mp (List.of_mem_zip inside).2
  have fits := within token' member
  simp only [Bool.not_eq_true', beq_eq_false_iff_ne]
  omega

/-- A handler that answers whatever the grammar produces is never done with an expression that is
too deep: it is refused at the first token of the level after the last one. -/
theorem parse_tooDeep (handler : Handler σ ε α) (answers : handler.Answers) {text : String}
    {options : Options} (derivation : Derivation .expression)
    (spells : (Lexing.ofText text options.comments).Spells derivation.tokens)
    (deep : options.depthLimit < derivation.nesting) (state : σ) :
    ∃ token, ((Lexing.ofText text options.comments).tokens.zip derivation.levels).find?
        (·.2 == options.depthLimit + 1) = some (token, options.depthLimit + 1) ∧
      (parse handler text options state).1 =
        .error (handler.ofError (.refused ⟨.nestingTooDeep options.depthLimit, token.start⟩)) := by
  obtain ⟨cursor, last, found, placed, depth, passes, ended⟩ := spells.passes
  have lexing := (Cursor.ofText?_ok found).2.2
  have tokens := derivation.leveled_tokens 1
  have walks := @Parser.complete_walks α options.depthLimit derivation _ _ placed depth passes ended
  have meets := @Parser.complete_meets α _ options.depthLimit _ placed
    (Cursor.ofText?_readable found)
  rw [parse, found]
  rcases (walks.and meets).run handler state with
    ⟨value, -, fits, -⟩ | ⟨error, refused, tooDeep, -⟩ | ⟨request, error, state', asks, failed, -⟩
  · exact absurd fits (Nat.not_le_of_lt deep)
  · obtain ⟨token, first, rfl⟩ := tooDeep.find placed (by rw [lexing, tokens]; exact spells.1)
      (tokens ▸ derivation.endOfInput_not_mem)
    exact ⟨token, lexing ▸ first, refused⟩
  · obtain ⟨value, after, answered⟩ := answers request asks.2 state'
    rw [answered] at failed
    cases failed

namespace Expression

/-- **The limit of nesting is exact.** Each token of an expression has a level, and the deepest one
is the nesting. An expression has its tree within every limit that is no lower. With a lower limit
it is refused, at the first token of the level after the last one that is allowed. A chain costs no
level, however long it is: it is as deep as its deepest operand. -/
theorem ofText?_nesting (text : String) (comments : Bool) (derivation : Derivation .expression)
    (spells : (Lexing.ofText text comments).Spells derivation.tokens) :
    let tokens := (Lexing.ofText text comments).tokens
    (derivation.leveled 1).map Prod.fst = tokens.map Located.token ∧
      derivation.levels.max? = some derivation.nesting ∧
      (∀ depthLimit, derivation.nesting ≤ depthLimit →
        ofText? text ⟨comments, depthLimit⟩ = .ok derivation.tree) ∧
      (∀ depthLimit < derivation.nesting, ∃ token,
        (tokens.zip derivation.levels).find? (·.2 == depthLimit + 1) =
            some (token, depthLimit + 1) ∧
          ofText? text ⟨comments, depthLimit⟩ =
            .error (.refused ⟨.nestingTooDeep depthLimit, token.start⟩)) ∧
      ∀ (rule : Rule) (tighter : List Rule) (binary : rule.kind = .binary)
        (first : Derivation (.layers tighter)) (links : Derivation (.links rule tighter)) limit,
        (Derivation.chain binary first links).level ≤ limit ↔
          first.level ≤ limit ∧ ∀ operand ∈ links.operands, operand.level ≤ limit := by
  refine ⟨(derivation.leveled_tokens 1).trans spells.1.symm, derivation.levels_max,
    fun depthLimit enough => ?_, fun depthLimit deep => ?_,
    fun _ _ binary first links limit => Derivation.chain_level_le binary first links limit⟩
  · exact ofText?_of_derivation spells enough
  · obtain ⟨token, first, refused⟩ := parse_tooDeep (Builder.tree id).handler
      (fun request produced => (Builder.total_tree id).answers produced) derivation spells
      (show (Options.mk comments depthLimit).depthLimit < _ from deep) ()
    exact ⟨token, first, (ofText?_eq ..).trans refused⟩

/-- With two levels the variable within the parentheses of an argument is too deep. -/
theorem ofText?_too_deep :
    ofText? "f((x))" ⟨true, 2⟩ = .error (.refused ⟨.nestingTooDeep 2, 3⟩) := by
  let inside := Derivation.alone (.reference "x" .lastName .uncalled) Rule.precedence
  let argument := Derivation.alone (.group inside) Rule.precedence
  let arguments := Derivation.called (.someArguments argument .lastArgument)
  have limits := ofText?_nesting "f((x))" true
    (.alone (.reference "f" .lastName arguments) Rule.precedence) (by decide +kernel)
  obtain ⟨token, first, refused⟩ := limits.2.2.2.1 2 (by decide +kernel)
  cases first.symm.trans (show _ = some (⟨3, .name "x"⟩, 3) by decide +kernel)
  exact refused

/-- A call, parentheses and operators before their operands all count. -/
example : ofText? "f((x), - -y)" ⟨true, 3⟩ = .error (.refused ⟨.nestingTooDeep 3, 10⟩) := by
  decide +kernel

end Expression

end Formula
