/-
**Comparing two compilations.**

A parse is the dialogue of its text (`Dialogue.ofText`), held with a handler, and it may end with a
refusal (`parseRefusal?`). So what is shown of two dialogues side by side is shown of two parses,
and, since a compilation is a parse and a finish, of two compilations and of their hook calls.

* `Dialogue.ofText_alike`: the dialogues of two texts are alike, if their cursors go on alike.
* `compile_of_parse`, `compile_of_parseRefusal?`: what two parses share, the compilations share.
-/

import Formula.Proofs.Lexing
import Formula.Proofs.Parser.Alike

namespace Formula

variable {σ κ ε α : Type}

/-! ### The dialogue of a text -/

/-- The dialogue of a text: the first token is read, and then a complete expression. -/
def Dialogue.ofText (text : String) (options : Options) : Dialogue α α :=
  (do Parser.advance; Parser.complete options.depthLimit : Parser α α) (.before text options)

theorem Dialogue.ofText_of_ok {text : String} {options : Options} {cursor : Cursor}
    (found : Cursor.ofText? text options = .ok cursor) :
    (ofText text options : Dialogue α α) = Parser.complete options.depthLimit cursor := by
  show Dialogue.andThen (Parser.advance (Cursor.before text options)) _ = _
  rw [Parser.advance_of_ok (Cursor.ofText?_eq text options ▸ found)]
  rfl

theorem Dialogue.ofText_of_error {text : String} {options : Options} {error : ParseError}
    (found : Cursor.ofText? text options = .error error) :
    ∃ left, (ofText text options : Dialogue α α) = .done left (.error error) := by
  obtain ⟨left, refuses⟩ := @Parser.advance_of_error α (Cursor.before text options) error found
  refine ⟨left, ?_⟩
  show Dialogue.andThen (Parser.advance (Cursor.before text options)) _ = _
  rw [refuses]
  rfl

/-- A parse is the dialogue of its text, held with the handler. -/
theorem parse_eq_run (handler : Handler σ ε α) (text : String) (options : Options) (state : σ) :
    parse handler text options state =
      (((Dialogue.ofText text options).run handler state).outcome,
        ((Dialogue.ofText text options).run handler state).state) := by
  unfold parse
  cases found : Cursor.ofText? text options with
  | error error =>
    obtain ⟨left, same⟩ := @Dialogue.ofText_of_error α text options error found
    rw [same]
    rfl
  | ok cursor => rw [Dialogue.ofText_of_ok found]

/-- The dialogues of two texts are alike, if their cursors go on alike, and if the second text has
no fewer levels than the first one. -/
theorem Dialogue.ofText_alike {stops : ParseError → Prop}
    {refusals : ParseError → ParseError → Prop} {related : Cursor → Cursor → Prop}
    (simulation : Cursor.Simulation stops refusals related)
    {text text' : String} {options options' : Options}
    (begins : related (.before text options) (.before text' options'))
    (tooDeep : ∀ reached reached', related reached reached' →
      stops ⟨.nestingTooDeep options.depthLimit, reached.start⟩ ∧
          options.depthLimit ≤ options'.depthLimit ∨
        refusals ⟨.nestingTooDeep options.depthLimit, reached.start⟩
            ⟨.nestingTooDeep options'.depthLimit, reached'.start⟩ ∧
          options.depthLimit = options'.depthLimit) :
    (ofText text options : Dialogue α α).Alike stops refusals (fun _ _ _ => True)
      (ofText text' options') := by
  refine (Parser.advance_passes simulation begins rfl rfl).andThen fun _ after after' passed => ?_
  obtain ⟨there, next, next'⟩ := passed
  have depth : after.depth = 0 := Cursor.next_depth next
  have depth' : after'.depth = 0 := Cursor.next_depth next'
  have complete := @Parser.complete_alike α _ _ _ simulation options.depthLimit options'.depthLimit
    after after' there fun reached reached' here => by
      rw [depth, depth']
      exact tooDeep reached reached' here
  exact complete.mono fun _ _ _ _ => trivial

/-! ### The refusal of a parse -/

/-- The refusal that a parse ends with, if it is one that it ends with. -/
def parseRefusal? (handler : Handler σ ε α) (text : String) (options : Options) (state : σ) :
    Option ParseError :=
  match Cursor.ofText? text options with
  | .error error => some error
  | .ok cursor => (Parser.complete options.depthLimit cursor).refusal? handler state

theorem parseRefusal?_eq (handler : Handler σ ε α) (text : String) (options : Options)
    (state : σ) :
    parseRefusal? handler text options state =
      (Dialogue.ofText text options).refusal? handler state := by
  unfold parseRefusal?
  cases found : Cursor.ofText? text options with
  | error error =>
    obtain ⟨left, same⟩ := @Dialogue.ofText_of_error α text options error found
    rw [same]
    rfl
  | ok cursor => rw [Dialogue.ofText_of_ok found]

theorem parse_of_parseRefusal? {handler : Handler σ ε α} {text : String} {options : Options}
    {state : σ} {error : ParseError}
    (refused : parseRefusal? handler text options state = some error) :
    (parse handler text options state).1 = .error (handler.ofError (.refused error)) := by
  rw [parseRefusal?_eq] at refused
  rw [parse_eq_run]
  exact Dialogue.run_of_refusal? refused

theorem parseRefusal?_logged (builder : Builder κ ε α) (text : String) (options : Options)
    (log : HookLog κ ε α) :
    parseRefusal? builder.logged.handler text options log =
      parseRefusal? builder.handler text options log.context := by
  rw [parseRefusal?_eq, parseRefusal?_eq]
  exact Dialogue.refusal?_view HookLog.context builder.logged_views _ log

/-! ### Compilations -/

section Compilations

variable (builder : Builder κ ε α) {text text' : String} {options options' : Options} {context : κ}

/-- Parses that come to the same are finished alike. -/
theorem compile_of_parse (same : parse builder.handler text options context =
      parse builder.handler text' options' context) :
    (compile builder text options context).outcome =
        (compile builder text' options' context).outcome ∧
      (compile builder text options context).context =
        (compile builder text' options' context).context := by
  have compiled := compile_eq builder text options context
  rw [same, ← compile_eq builder text' options' context] at compiled
  exact Prod.ext_iff.mp compiled

/-- A parse that fails is not finished. -/
theorem compile_of_failure {error : ε}
    (failed : (parse builder.handler text options context).1 = .error error) :
    (compile builder text options context).outcome = .error error ∧
      (compile builder text options context).context =
        (parse builder.handler text options context).2 := by
  have compiled := compile_eq builder text options context
  generalize parse builder.handler text options context = ran at failed compiled ⊢
  obtain ⟨outcome, after⟩ := ran
  cases failed
  exact Prod.ext_iff.mp compiled

theorem compile_of_parseRefusal? {error : ParseError}
    (refused : parseRefusal? builder.handler text options context = some error) :
    (compile builder text options context).outcome = .error (builder.ofError (.refused error)) :=
  (compile_of_failure builder (parse_of_parseRefusal? refused)).1

/-- Where the dialogues of two texts are alike, the compilations leave the same context, and have
the same outcome or are both refused, unless the first one stops. -/
theorem compile_alike {stops : ParseError → Prop} {refusals : ParseError → ParseError → Prop}
    {results : α → Cursor → Cursor → Prop}
    (alike : (Dialogue.ofText text options : Dialogue α α).Alike stops refusals results
      (Dialogue.ofText text' options')) (context : κ) :
    (∃ error, parseRefusal? builder.handler text options context = some error ∧ stops error) ∨
      (compile builder text options context).context =
          (compile builder text' options' context).context ∧
        (parseRefusal? builder.handler text options context = none ∧
            parseRefusal? builder.handler text' options' context = none ∧
            (compile builder text options context).outcome =
              (compile builder text' options' context).outcome ∨
          ∃ error error', parseRefusal? builder.handler text options context = some error ∧
            parseRefusal? builder.handler text' options' context = some error' ∧
            refusals error error') := by
  have ran := alike.run_cases builder.handler context
  rw [← parseRefusal?_eq, ← parseRefusal?_eq] at ran
  rcases ran with
    stop | ⟨state, ⟨kept, kept', outcome⟩ | ⟨error, error', refused, refused', related⟩⟩
  · exact .inl stop
  · have parses : parse builder.handler text options context =
        parse builder.handler text' options' context := by
      rw [parse_eq_run, parse_eq_run]
      exact Prod.ext outcome state
    obtain ⟨same_outcome, same_context⟩ := compile_of_parse builder parses
    exact .inr ⟨same_context, .inl ⟨kept, kept', same_outcome⟩⟩
  · refine .inr ⟨?_, .inr ⟨error, error', refused, refused', related⟩⟩
    rw [(compile_of_failure builder (parse_of_parseRefusal? refused)).2,
      (compile_of_failure builder (parse_of_parseRefusal? refused')).2, parse_eq_run, parse_eq_run]
    exact state

end Compilations

/-- The log of a compilation begins with that of its parse. -/
theorem compile_log_grows (builder : Builder κ ε α) (text : String) (options : Options)
    (log : HookLog κ ε α) :
    (parse builder.logged.handler text options log).2.Grows
      (compile builder.logged text options log).context := by
  have compiled := congrArg Prod.snd (compile_eq builder.logged text options log)
  dsimp only at compiled
  rw [compiled]
  generalize parse builder.logged.handler text options log = ran
  obtain ⟨outcome, after⟩ := ran
  cases outcome with
  | ok value => exact builder.logging_grows (.finish value) after
  | error error => exact after.grows_refl

end Formula
