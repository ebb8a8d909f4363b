/-
**What is recorded, of a tree and of a text that is refused.**

A text that has a tree adds the mentions of the tree to a usage. A text that is refused adds those
that had been made before: each of them has its source among the tokens before the position of the
refusal (`Lexing.Sources`). Either way what is added does not depend on what the usage held, and
nothing is taken from it.

* `Builder.collecting_answers`: an answer of collecting adds what the request mentions.
* `Usage.ofText_sources`: the mentions of a text that is refused.
* `compile_collecting_mentions`: what collecting adds to a usage.
-/

import Formula.Proofs.EarliestError
import Formula.Proofs.Mentions
import Formula.Proofs.Parser.Sources

namespace Formula

variable {ε : Type}

/-- An answer of collecting adds what the request mentions, and is what was asked for. -/
theorem Builder.collecting_answers (ofError : Error → ε) {request : Request Expression}
    (produced : request.From Token.Readable) :
    ∃ answer, ((collecting ofError).handler.answer request).Records answer
        request.mention?.toList ∧ request.Names answer := by
  cases request with
  | number lexeme =>
    obtain ⟨literal, read⟩ := produced
    refine ⟨.literal literal, ?_, trivial⟩
    simp only [handler, number, read]
    exact Action.records_pure _
  | text content => exact ⟨_, Action.records_pure _, trivial⟩
  | reference segments =>
    refine ⟨⟨segments⟩, ?_, rfl⟩
    simp only [handler, refer, List.isEmpty_eq_false_iff.mpr produced.1]
    exact Action.records_pure _
  | atom atom =>
    cases atom with
    | literal value => exact ⟨value, Action.records_pure _, trivial⟩
    | group value => exact ⟨value, Action.records_pure _, trivial⟩
    | reference target arguments =>
      cases arguments with
      | none => exact ⟨_, collecting_reference ofError target, trivial⟩
      | some arguments => exact ⟨_, collecting_call ofError target arguments, trivial⟩
  | reduce rule reduction =>
    cases reduction with
    | passthrough operand =>
      refine ⟨operand, ?_, trivial⟩
      simp only [handler, reduce]
      exact Action.records_pure _
    | binary first rest =>
      refine ⟨rest.foldl (fun left link => .binary link.1 left link.2) first, ?_, trivial⟩
      simp only [handler, reduce, produced.1]
      exact collecting_chain ofError first rest
    | unary symbol operand =>
      refine ⟨.unary symbol operand, ?_, trivial⟩
      simp only [handler, reduce, produced.1]
      exact Action.records_pure _

/-- Holds of a usage whose mentions all have their source before an offset. -/
def Usage.SourcedBefore (whole : Lexing) (offset : Nat) (usage : Usage) : Prop :=
  ∀ mention ∈ usage, whole.Sources offset mention

theorem Usage.SourcedBefore.mono {whole : Lexing} {low high : Nat} {usage : Usage}
    (sourced : usage.SourcedBefore whole low) (later : low ≤ high) :
    usage.SourcedBefore whole high :=
  fun mention inside => (sourced mention inside).mono later

/-- A parse that collects from nothing gives a tree, or is refused after what it has recorded. -/
theorem parse_collecting_sources (text : String) (options : Options) :
    let parsed := parse (Builder.collecting id).handler text options {}
    (∃ tree, parsed.1 = .ok tree) ∨
      ∃ refusal, parsed.1 = .error (.refused refusal) ∧
        parsed.2.SourcedBefore (.ofText text options.comments) refusal.position := by
  have nothing (whole : Lexing) (offset : Nat) : Usage.SourcedBefore whole offset {} :=
    fun mention inside => absurd inside (Usage.not_mem_empty mention)
  intro parsed
  unfold parsed parse
  cases found : Cursor.ofText? text options with
  | error error => exact .inr ⟨error, rfl, nothing _ _⟩
  | ok cursor =>
    have past := Cursor.ofText?_past found
    have meets := @Parser.complete_meets Expression _ options.depthLimit _ past.placed
      (Cursor.ofText?_readable found)
    have tells := (Parser.complete_tells options.depthLimit past).and meets
    refine tells.run (Builder.collecting id).handler (fun _ _ _ later kept => kept.mono later) ?_
      (nothing _ _)
    rintro cursor request usage ⟨sourced, produced⟩ kept
    obtain ⟨answer, records, named⟩ := Builder.collecting_answers id produced
    refine ⟨answer, _, records usage, named, fun mention inside => ?_⟩
    rcases Usage.mem_addAll.mp inside with added | before
    · exact sourced mention (Option.mem_toList.mp added)
    · exact kept mention before

/-- The mentions of a text that is refused have their source before the refusal. -/
theorem Usage.ofText_sources {text : String} {options : Options} {error : Error}
    (failed : Expression.ofText? text options = .error error) :
    ∃ refusal, error = .refused refusal ∧
      (Usage.ofText text options).SourcedBefore (.ofText text options.comments)
        refusal.position := by
  have outcome := (compile_collecting text options {}).1.trans failed
  have compiled := compile_eq (Builder.collecting id) text options {}
  have parsed := parse_collecting_sources text options
  unfold Usage.ofText
  generalize parse (Builder.collecting id).handler text options {} = ran at compiled parsed
  obtain ⟨result, after⟩ := ran
  obtain ⟨same, context⟩ := Prod.mk.inj compiled
  rcases parsed with ⟨tree, rfl⟩ | ⟨refusal, rfl, sourced⟩
  · cases outcome.symm.trans same
  · cases outcome.symm.trans same
    exact ⟨refusal, rfl, context ▸ sourced⟩

/-- **Collecting records what the tree mentions, and no more than what was read.** Whatever a usage
holds, collecting gives a text its tree or its error, takes nothing from the usage, and adds to it
what depends on the text and the options alone. If the text has a tree, these are the variables and
the functions of the tree. If it is refused, each is named by a reference that stands complete
before the position of the refusal: a variable by one that is not called, a function by one whose
arguments are closed there as well. -/
theorem compile_collecting_mentions (text : String) (options : Options) :
    ∃ recorded : Usage,
      (∀ usage : Usage,
        (compile (Builder.collecting id) text options usage).outcome =
            Expression.ofText? text options ∧
          ∀ mention, mention ∈ (compile (Builder.collecting id) text options usage).context ↔
            mention ∈ usage ∨ mention ∈ recorded) ∧
      (∀ tree, Expression.ofText? text options = .ok tree →
        ∀ mention, mention ∈ recorded ↔ mention ∈ tree.mentions) ∧
      ∀ error, Expression.ofText? text options = .error error →
        ∃ refusal, error = .refused refusal ∧ ∀ mention ∈ recorded,
          (Lexing.ofText text options.comments).Sources refusal.position mention := by
  refine ⟨Usage.ofText text options, fun usage => ?_, fun tree compiled mention => ?_,
    fun error failed => Usage.ofText_sources failed⟩
  · obtain ⟨outcome, context⟩ := compile_collecting text options usage
    refine ⟨outcome, fun mention => ?_⟩
    rw [context, Usage.mem_union, or_comm]
  · rw [Usage.ofText_tree compiled, Usage.mem_addAll, or_iff_left (Usage.not_mem_empty mention)]

/-- An unfinished call is refused at its end; the call before it is recorded, and so are the
variables of both, but not the function whose arguments are not closed. -/
theorem compile_collecting_unfinished_call :
    let left := (compile (Builder.collecting id) "f(a.b) + g(x" {} {}).context
    left.variables.toList = ["a.b", "x"] ∧ left.functions.toList = ["f"] ∧
      (Lexing.ofText "f(a.b) + g(x" true).Sources 12 (.function "f") := by
  intro left
  obtain ⟨recorded, gains, -, sources⟩ := compile_collecting_mentions "f(a.b) + g(x" {}
  obtain ⟨refusal, same, sourced⟩ := sources (.refused ⟨.unexpectedEnd .separatorOrClosing, 12⟩)
    (by decide +kernel)
  cases same
  have functions : left.functions.toList = ["f"] := by decide +kernel
  have added : Usage.Mention.function "f" ∈ left := by
    show "f" ∈ left.functions.toList
    rw [functions]
    exact List.mem_singleton_self "f"
  have inside := ((gains {}).2 (.function "f")).mp added
  exact ⟨by decide +kernel, functions, sourced _ (inside.resolve_left (Usage.not_mem_empty _))⟩

end Formula
