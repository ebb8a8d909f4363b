/-
**The depth of a parser that is used again.**

A parser may be asked for one expression after another, also where it has failed. A step that goes
well leaves as many levels open as it has found. A step that fails leaves those open that were open
where it failed, and they are never closed again. So the depth only grows from step to step, up to
the limit; and from then on every step is refused at once.

* `Parser.step_agree`: a step in which the levels are counted, however that is done.
* `Parsing.step_depth`, `Parsing.steps_depth`: the depth after one step, and after many.
* `Parsing.step_full`, `Parsing.steps_full`: the steps of a parser that is as deep as it may be.
* `Parsing.depth_accounted`: the depth of every parser of a text, at all times.
-/

import Formula.Proofs.Parser.Counting
import Formula.Proofs.Splitting
import Mathlib.Algebra.Group.Nat.Defs

namespace Formula

variable {σ ε α β : Type}

/-! ### Steps -/

/-- The end of a run is within the depths that the dialogue keeps to, and at the first of them if it
has gone well. -/
theorem Dialogue.Keeps.run {depth limit : Nat} {dialogue : Dialogue α β}
    (keeps : dialogue.Keeps depth limit) (within : depth ≤ limit) (handler : Handler σ ε α)
    (state : σ) :
    depth ≤ (dialogue.run handler state).cursor.depth ∧
      (dialogue.run handler state).cursor.depth ≤ limit ∧
      ((dialogue.run handler state).outcome.isOk = true →
        (dialogue.run handler state).cursor.depth = depth) := by
  rcases Meets.run keeps handler state with
    ⟨value, -, there⟩ | ⟨error, refused, there⟩ | ⟨request, error, _, there, -, failed⟩
  · exact ⟨Nat.le_of_eq there.symm, there ▸ within, fun _ => there⟩
  · refine ⟨there.1, there.2, fun good => ?_⟩
    rw [refused] at good
    cases good
  · refine ⟨there.1, there.2, fun good => ?_⟩
    rw [failed] at good
    cases good

namespace Parser

/-- Makes a step with a parser of expressions. -/
def Step.reading (expression : Parser α α) : Step → Parser α α
  | .expression => expression
  | .complete => do
    let value ← expression
    expect .endOfInput .endOfInput
    return value

theorem Step.reading_expression (limit : Nat) (step : Step) :
    step.reading (Parser.expression limit : Parser α α) = step.parser limit := by
  cases step <;> rfl

variable {depth limit : Nat} {enter leave : Parser α Unit}

/-- A step is the same if its levels are counted, and it keeps to the depths from where it begins up
to the limit. -/
theorem step_agree (counts : Counts limit enter leave) (bottom : List Rule → Parser α α)
    {count : Nat} (more : limit < count) (within : depth ≤ limit) (step : Step) :
    Agree depth limit (step.reading (levels enter leave bottom count Rule.precedence))
      (step.parser limit) := by
  have expression_agree : Agree depth limit (levels enter leave bottom count Rule.precedence)
      (Parser.expression limit) := by
    rintro cursor rfl
    exact levels_agree counts bottom (by omega) (Nat.add_sub_of_le within) Rule.precedence rfl
  rw [← Step.reading_expression]
  cases step with
  | expression => exact expression_agree
  | complete =>
    exact expression_agree.bind fun value =>
      (expect_agree within .endOfInput .endOfInput).bind fun _ => pure_agree value

theorem step_keeps {cursor : Cursor} (within : cursor.depth ≤ limit) (step : Step) :
    (step.parser limit cursor : Dialogue α α).Keeps cursor.depth limit := by
  have counts : Counts limit (countUp (limit + 1) limit advance) (countDown advance : Parser α _) :=
    counts_of_lt (Nat.lt_succ_self limit) advance advance
  have agree := step_agree counts (nested limit 0) (Nat.lt_succ_self limit) within step
  obtain ⟨same, keeps⟩ := agree rfl
  exact same ▸ keeps

/-- At the limit a step is refused before anything else. -/
theorem step_of_full {cursor : Cursor} (full : cursor.depth = limit) (step : Step) :
    (step.parser limit cursor : Dialogue α α) =
      .done cursor (.error ⟨.nestingTooDeep limit, cursor.start⟩) := by
  subst full
  have refused : (Parser.expression cursor.depth cursor : Dialogue α α) =
      .done cursor (.error ⟨.nestingTooDeep cursor.depth, cursor.start⟩) := by
    rw [Parser.expression, cursor_bind, Nat.sub_self]
    rfl
  cases step with
  | expression => exact refused
  | complete =>
    show Dialogue.andThen (Parser.expression cursor.depth cursor) _ = _
    rw [refused]
    rfl

end Parser

namespace Parsing

/-- No level is open where a text begins. -/
theorem ofText?_depth {text : String} {options : Options} {state : σ} {first : Parsing σ}
    (found : ofText? text options state = .ok first) : first.cursor.depth = 0 := by
  rw [ofText?] at found
  cases begins : Cursor.ofText? text options with
  | error error =>
    rw [begins] at found
    cases found
  | ok cursor =>
    rw [begins] at found
    cases found
    exact (Cursor.ofText?_ok begins).2.1

variable (handler : Handler σ ε α) {limit : Nat} (parsing : Parsing σ)

theorem steps_cons (step : Parser.Step) (steps : List Parser.Step) :
    parsing.steps handler limit (step :: steps) =
      ((parsing.step handler limit step).1 ::
          ((parsing.step handler limit step).2.steps handler limit steps).1,
        ((parsing.step handler limit step).2.steps handler limit steps).2) :=
  rfl

section Within

variable (within : parsing.cursor.depth ≤ limit)

include within

theorem step_depth (step : Parser.Step) :
    parsing.cursor.depth ≤ (parsing.step handler limit step).2.cursor.depth ∧
      (parsing.step handler limit step).2.cursor.depth ≤ limit ∧
      ((parsing.step handler limit step).1.isOk = true →
        (parsing.step handler limit step).2.cursor.depth = parsing.cursor.depth) :=
  (Parser.step_keeps within step).run within handler parsing.state

/-- From step to step the depth grows, and it stays within the limit. -/
theorem steps_depth (steps : List Parser.Step) :
    parsing.cursor.depth ≤ (parsing.steps handler limit steps).2.cursor.depth ∧
      (parsing.steps handler limit steps).2.cursor.depth ≤ limit := by
  induction steps generalizing parsing with
  | nil => exact ⟨Nat.le_refl _, within⟩
  | cons step steps rest =>
    obtain ⟨more, within', -⟩ := step_depth handler parsing within step
    obtain ⟨still_more, last⟩ := rest _ within'
    exact ⟨Nat.le_trans more still_more, last⟩

end Within

section Full

variable (full : parsing.cursor.depth = limit)

include full

theorem step_full (step : Parser.Step) :
    parsing.step handler limit step =
      (.error (handler.ofError (.refused ⟨.nestingTooDeep limit, parsing.cursor.start⟩)),
        parsing) := by
  rw [Parsing.step, Parser.step_of_full full]
  rfl

theorem calls_full (step : Parser.Step) : parsing.calls handler limit step = [] := by
  rw [calls, step_full handler.recorded ⟨parsing.cursor, ⟨parsing.state, []⟩⟩ full]

/-- A parser that is as deep as it may be stays as it is. -/
theorem steps_full (steps : List Parser.Step) :
    parsing.steps handler limit steps =
      (steps.map fun _ =>
          .error (handler.ofError (.refused ⟨.nestingTooDeep limit, parsing.cursor.start⟩)),
        parsing) := by
  induction steps with
  | nil => rfl
  | cons step steps rest => rw [steps_cons, step_full handler parsing full, rest, List.map_cons]

end Full

/-- **The levels of a parser that is used again.** However levels are entered and left, if only they
are counted within the limit, every step of every parser of a text is the same. So none is entered
at a depth above the limit and none is left at depth zero, where anything at all might happen; and a
counter of machine words neither overflows nor underflows, if the limit is a word. Whatever is
answered, a step asks and ends at depths from where it has begun up to the limit, and just where it
has begun if it goes well. From step to step the depth never gets less. Once it has reached the
limit every step is refused, nothing is asked, and nothing changes any more. -/
theorem depth_accounted (text : String) (options : Options) (state : σ) {first : Parsing σ}
    (found : ofText? text options state = .ok first) :
    let limit := options.depthLimit
    (limit < 2 ^ 64 → ∀ overflow underflow : Parser α Unit,
      Parser.Counts limit (Parser.countUp (2 ^ 64) limit overflow) (Parser.countDown underflow)) ∧
    ∀ steps : List Parser.Step,
      let before := (first.steps handler limit steps).2
      let depth := before.cursor.depth
      depth ≤ limit ∧
      (∀ step : Parser.Step,
        let made := before.step handler limit step
        (∀ (enter leave : Parser α Unit), Parser.Counts limit enter leave →
          ∀ (bottom : List Rule → Parser α α) (count : Nat), limit < count →
            step.reading (Parser.levels enter leave bottom count Rule.precedence) before.cursor =
              step.parser limit before.cursor) ∧
        (step.parser limit before.cursor : Dialogue α α).Keeps depth limit ∧
        depth ≤ made.2.cursor.depth ∧ made.2.cursor.depth ≤ limit ∧
        (made.1.isOk = true → made.2.cursor.depth = depth)) ∧
      ∀ more : List Parser.Step,
        depth ≤ (before.steps handler limit more).2.cursor.depth ∧
        (depth = limit →
          before.steps handler limit more =
            (more.map fun _ =>
                .error (handler.ofError (.refused ⟨.nestingTooDeep limit, before.cursor.start⟩)),
              before) ∧
          ∀ step ∈ more, before.calls handler limit step = []) := by
  intro limit
  refine ⟨fun fits => Parser.counts_of_lt fits, fun steps => ?_⟩
  have begins : first.cursor.depth ≤ limit := ofText?_depth found ▸ Nat.zero_le limit
  have within := (steps_depth handler first begins steps).2
  refine ⟨within, fun step => ⟨fun enter leave counts bottom count more => ?_, ?_, ?_⟩,
    fun more => ⟨(steps_depth handler _ within more).1, fun full => ⟨?_, fun step _ => ?_⟩⟩⟩
  · exact (Parser.step_agree counts bottom more within step rfl).1
  · exact Parser.step_keeps within step
  · exact step_depth handler _ within step
  · exact steps_full handler _ full more
  · exact calls_full handler _ full step

/-- A number is read, in a level that is counted in words. Then two parentheses open that nothing
closes: the levels are used up, and so the parser stays at the end of the text. -/
theorem depth_accounted_unclosed :
    let handler : Handler Unit Error Expression := (Builder.tree id).handler
    ∃ first : Parsing Unit, ofText? "1 ((" ⟨true, 2⟩ () = .ok first ∧
      Parser.levels (Parser.countUp (2 ^ 64) 2 Parser.advance) (Parser.countDown Parser.advance)
          (fun _ => Parser.unexpected .expression) 3 Rule.precedence first.cursor =
        (Parser.expression 2 first.cursor : Dialogue Expression Expression) ∧
      (first.step handler 2 .expression).2.cursor.depth = first.cursor.depth ∧
      let before := (first.steps handler 2 [.expression, .complete]).2
      before.steps handler 2 [.complete, .expression] =
        ([.error (.refused ⟨.nestingTooDeep 2, 4⟩), .error (.refused ⟨.nestingTooDeep 2, 4⟩)],
          before) ∧
      before.calls handler 2 .expression = [] := by
  intro handler
  have computed : (ofText? "1 ((" ⟨true, 2⟩ ()).toOption.map (fun first =>
      let before := (first.steps handler 2 [.expression, .complete]).2
      ((first.step handler 2 .expression).1.isOk, before.cursor.depth, before.cursor.start)) =
        some (true, 2, 4) := by
    decide +kernel
  cases found : ofText? "1 ((" ⟨true, 2⟩ () with
  | error error =>
    rw [found] at computed
    cases computed
  | ok first =>
    rw [found] at computed
    obtain ⟨good, full, start⟩ : _ ∧ _ ∧ _ := by simpa using Option.some.inj computed
    obtain ⟨counts, accounted⟩ := depth_accounted handler "1 ((" ⟨true, 2⟩ () found
    obtain ⟨counted, -, -, -, balanced⟩ := (accounted []).2.1 .expression
    obtain ⟨same, nothing⟩ :=
      ((accounted [.expression, .complete]).2.2 [.complete, .expression]).2 full
    refine ⟨first, rfl, ?_, balanced good, ?_, nothing .expression (by simp)⟩
    · exact counted _ _ (counts (by decide) _ _) _ 3 (by decide)
    · rw [same, start]
      rfl

end Parsing

end Formula
