/-
**What a handler can rely on.**

Whatever the text, and whatever comes of the parse, a handler is asked only for what the grammar
produces from lawful tokens: numbers are spelled as numbers and have a value, references are names,
of which there is one at least, and a layer is reduced to what its kind and its operators allow
(`Request.From`). So the errors that answer anything else are never met.

* `Dialogue.Meets.calls`: what every request of a dialogue meets is met by the calls of every
  handler.
* `parse_keeps_contract`: the calls of every parse, and the outcomes of builders that never fail.
-/

import Formula.Proofs.Calls
import Formula.Proofs.Compile
import Formula.Proofs.Build
import Formula.Proofs.LexicalGrammar

namespace Formula

variable {σ κ ε α β : Type}

/-! ### Tokens -/

/-- Holds of the tokens that can be read: a number is spelled as one and has a value, and a name is
a word that is no operator. -/
def Token.Lawful : Token → Prop
  | number lexeme => SpellsNumber lexeme.toList ∧ ∃ literal, Literal.ofLexeme? lexeme = some literal
  | name letters => IsName letters
  | _ => True

theorem Token.SpelledBy.lawful {token : Token} {spelling : List Char}
    (spells : token.SpelledBy spelling) : token.Lawful := by
  cases token with
  | number lexeme =>
    obtain ⟨numeral, kept⟩ := spells
    have spelled : SpellsNumber lexeme.toList := kept ▸ numeral
    exact ⟨spelled, spelled.readable⟩
  | name letters => exact spells.1
  | _ => trivial

/-- All tokens of a text are lawful. -/
theorem Cursor.ofText?_lawful {text : String} {options : Options} {cursor : Cursor}
    (found : ofText? text options = .ok cursor) : cursor.All Token.Lawful := by
  have read (scanner : Scanner) (token : Token) (outcome : scanner.next.1.outcome = .ok token) :
      token.Lawful := by
    by_cases ended : token = .endOfInput
    · rw [ended]
      trivial
    · obtain ⟨spelling, -, -, spells, -⟩ :=
        Scanner.scan_reads (Prod.ext outcome rfl : Scanner.scan scanner.tokenSpot = (.ok token, _))
          ended
      exact spells.lawful
  obtain ⟨items, last⟩ := @Scanner.tape_all (fun _ => True)
    (fun scanned => ∀ token, scanned.outcome = .ok token → token.Lawful)
    (fun scanner _ => ⟨read scanner, trivial⟩) (.ofText text options.comments) trivial
  have start : (before text options).All Token.Lawful :=
    ⟨trivial, items, last⟩
  exact start.next (ofText?_eq text options ▸ found)

/-! ### Calls -/

/-- What every request of a dialogue meets is met by the calls of every handler. -/
theorem Dialogue.Meets.calls {asks : Request α → Prop} {results : β → Cursor → Prop}
    {refusals : ParseError → Cursor → Prop} {dialogue : Dialogue α β}
    (meets : dialogue.Meets (fun _ request => asks request) results refusals)
    (handler : Handler σ ε α) (state : σ) :
    ∀ call ∈ dialogue.calls handler state, asks call.request := by
  induction dialogue generalizing state with
  | done cursor outcome => exact List.forall_mem_nil _
  | ask cursor request resume step =>
    rw [Dialogue.calls]
    generalize (handler.answer request).run.run state = answered
    obtain ⟨outcome, after⟩ := answered
    cases outcome with
    | ok answer => exact List.forall_mem_cons.mpr ⟨meets.1, step answer (meets.2 answer) after⟩
    | error error => exact List.forall_mem_singleton.mpr meets.1

theorem parseCalls_from (handler : Handler σ ε α) (text : String) (options : Options) (state : σ) :
    ∀ call ∈ parseCalls handler text options state, call.request.From Token.Lawful := by
  rw [parseCalls_eq]
  cases found : Cursor.ofText? text options with
  | error error => exact List.forall_mem_nil _
  | ok cursor =>
    have placed := (Cursor.ofText?_ok found).1
    exact (Parser.complete_meets options.depthLimit placed (Cursor.ofText?_lawful found)).calls
      handler state

/-! ### Builders that never fail -/

/-- A builder that never fails gives a text its value, or the text is refused. -/
theorem Builder.Total.parse {builder : Builder κ ε α} (total : builder.Total) (text : String)
    (options : Options) (context : κ) :
    (∃ value, (parse builder.handler text options context).1 = .ok value) ∨
      ∃ error, (parse builder.handler text options context).1 =
        .error (builder.ofError (.refused error)) := by
  rcases parse_cases builder.handler text options context with
    ⟨value, parsed, -⟩ | ⟨error, refused, -⟩ | ⟨request, error, state, produced, failed, -⟩
  · exact .inl ⟨value, parsed⟩
  · exact .inr ⟨error, refused⟩
  · obtain ⟨answer, after, answered⟩ := total.answers produced state
    rw [answered] at failed
    cases failed

/-- **A handler is asked only for what the grammar produces.** So a builder that never fails gives a
text its value, or the text is refused, and none of the other errors is met. -/
theorem parse_keeps_contract (text : String) (options : Options) :
    (∀ {σ ε α : Type} (handler : Handler σ ε α) (state : σ),
      ∀ call ∈ parseCalls handler text options state, call.request.From Token.Lawful) ∧
    ∀ {κ ε α : Type} (builder : Builder κ ε α) (context : κ), builder.Total →
      (∀ value, (builder.finish value).Succeeds) →
        (∃ value, (compile builder text options context).outcome = .ok value) ∨
          ∃ error, (compile builder text options context).outcome =
            .error (builder.ofError (.refused error)) := by
  refine ⟨fun handler => parseCalls_from handler text options, ?_⟩
  intro κ ε α builder context total finishes
  have compiled := congrArg Prod.fst (compile_eq builder text options context)
  have parsed := total.parse text options context
  generalize parse builder.handler text options context = ran at compiled parsed
  obtain ⟨outcome, after⟩ := ran
  rcases parsed with ⟨value, rfl⟩ | ⟨error, rfl⟩
  · obtain ⟨finished, last, ran⟩ := finishes value after
    exact .inl ⟨finished, compiled.trans (congrArg Prod.fst ran)⟩
  · exact .inr ⟨error, compiled⟩

/-- The builder of trees refuses an unfinished sum, after the calls for what comes before. -/
theorem compile_unfinished_sum :
    (∀ call ∈ parseCalls (Builder.tree id).handler "1 + x.y +" {} (),
        call.request.From Token.Lawful) ∧
      ∃ error, (compile (Builder.tree id) "1 + x.y +" {} ()).outcome = .error (.refused error) := by
  have contract := parse_keeps_contract "1 + x.y +" {}
  refine ⟨contract.1 _ (), ?_⟩
  rcases contract.2 (Builder.tree id) () (Builder.total_tree id)
    (fun value => Action.succeeds_pure value) with ⟨value, compiled⟩ | refused
  · have failed : (compile (Builder.tree id) "1 + x.y +" {} ()).outcome.isOk = false := by
      decide +kernel
    rw [compiled] at failed
    cases failed
  · exact refused

end Formula
