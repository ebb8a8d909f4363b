/-
**Two parses side by side.**

Two dialogues are alike if they make the same requests and, given the same answers, come to the same
result or to refusals that are related; some refusals are let go, and end the first dialogue only
(`Dialogue.Alike`). Parsers keep this up from cursors that show the same tokens
(`Cursor.Simulation`): the parser looks at nothing else of them.

* `Dialogue.Alike.run`: alike dialogues run alike with every handler.
* `Parser.complete_alike`: two parses of whole texts are alike, if neither is short of levels before
  the other.
-/

import Formula.Proofs.Hooks
import Formula.Proofs.Parser.Steps

namespace Formula

variable {σ τ ε α β γ : Type}

/-! ### Dialogues -/

namespace Dialogue

/-- Holds of two dialogues that make the same requests and, whatever is answered, end alike: with
the same result or with related refusals, unless the first one stops before. -/
inductive Alike (stops : ParseError → Prop) (refusals : ParseError → ParseError → Prop)
    (results : β → Cursor → Cursor → Prop) : Dialogue α β → Dialogue α β → Prop
  | result {value : β} {cursor cursor' : Cursor} (related : results value cursor cursor') :
    Alike stops refusals results (.done cursor (.ok value)) (.done cursor' (.ok value))
  | refusal {error error' : ParseError} {cursor cursor' : Cursor}
    (related : refusals error error') :
    Alike stops refusals results (.done cursor (.error error)) (.done cursor' (.error error'))
  | stopped {error : ParseError} {cursor : Cursor} (stop : stops error)
    (dialogue : Dialogue α β) : Alike stops refusals results (.done cursor (.error error)) dialogue
  | ask {cursor cursor' : Cursor} {request : Request α}
    {resume resume' : request.Answer → Dialogue α β}
    (more : ∀ answer, Alike stops refusals results (resume answer) (resume' answer)) :
    Alike stops refusals results (.ask cursor request resume) (.ask cursor' request resume')

variable {stops : ParseError → Prop} {refusals : ParseError → ParseError → Prop}
  {results : β → Cursor → Cursor → Prop}

theorem Alike.mono {results' : β → Cursor → Cursor → Prop} {first second : Dialogue α β}
    (alike : first.Alike stops refusals results second)
    (weaker : ∀ value cursor cursor', results value cursor cursor' →
      results' value cursor cursor') : first.Alike stops refusals results' second := by
  induction alike with
  | result related => exact .result (weaker _ _ _ related)
  | refusal related => exact .refusal related
  | stopped stop dialogue => exact .stopped stop dialogue
  | ask _ step => exact .ask step

theorem Alike.andThen {middle : γ → Cursor → Cursor → Prop} {first second : Dialogue α γ}
    {next next' : γ → Cursor → Dialogue α β} (alike : first.Alike stops refusals middle second)
    (rest : ∀ value cursor cursor', middle value cursor cursor' →
      (next value cursor).Alike stops refusals results (next' value cursor')) :
    (first.andThen next).Alike stops refusals results (second.andThen next') := by
  induction alike with
  | result related => exact rest _ _ _ related
  | refusal related => exact .refusal related
  | stopped stop dialogue => exact .stopped stop _
  | ask _ step => exact .ask step

/-! ### Running -/

/-- The refusal that a dialogue ends with, if it is one that it ends with. -/
def refusal? (handler : Handler σ ε α) : Dialogue α β → σ → Option ParseError
  | done _ (.ok _), _ => none
  | done _ (.error error), _ => some error
  | ask _ request resume, state =>
    match (handler.answer request).run.run state with
    | (.ok answer, state) => (resume answer).refusal? handler state
    | (.error _, _) => none

theorem run_of_refusal? {handler : Handler σ ε α} {dialogue : Dialogue α β} {state : σ}
    {error : ParseError} (refused : dialogue.refusal? handler state = some error) :
    (dialogue.run handler state).outcome = .error (handler.ofError (.refused error)) := by
  induction dialogue generalizing state with
  | done cursor outcome =>
    cases outcome with
    | ok value => cases refused
    | error error =>
      cases refused
      rfl
  | ask cursor request resume step =>
    rw [refusal?] at refused
    rw [run]
    generalize (handler.answer request).run.run state = answered at refused ⊢
    obtain ⟨outcome, after⟩ := answered
    cases outcome with
    | ok answer => exact step answer refused
    | error error => cases refused

/-- What a handler carries beside its state has no part in a refusal. -/
theorem refusal?_view {wide : Handler τ ε α} {handler : Handler σ ε α} (view : τ → σ)
    (answers : ∀ request, (wide.answer request).Views view (handler.answer request))
    (dialogue : Dialogue α β) (state : τ) :
    dialogue.refusal? wide state = dialogue.refusal? handler (view state) := by
  induction dialogue generalizing state with
  | done cursor outcome => cases outcome <;> rfl
  | ask cursor request resume step =>
    have answered := answers request state
    rw [refusal?, refusal?, ← answered]
    generalize (wide.answer request).run.run state = ran
    obtain ⟨outcome, after⟩ := ran
    cases outcome with
    | ok answer => exact step answer after
    | error error => rfl

/-- Dialogues that are alike run alike with every handler: to the same state, and to the same
outcome or to related refusals, unless the first one stops. -/
theorem Alike.run_cases {first second : Dialogue α β}
    (alike : first.Alike stops refusals results second) (handler : Handler σ ε α) (state : σ) :
    (∃ error, first.refusal? handler state = some error ∧ stops error) ∨
      (first.run handler state).state = (second.run handler state).state ∧
        (first.refusal? handler state = none ∧ second.refusal? handler state = none ∧
            (first.run handler state).outcome = (second.run handler state).outcome ∨
          ∃ error error', first.refusal? handler state = some error ∧
            second.refusal? handler state = some error' ∧ refusals error error') := by
  induction alike generalizing state with
  | result related => exact .inr ⟨rfl, .inl ⟨rfl, rfl, rfl⟩⟩
  | refusal related => exact .inr ⟨rfl, .inr ⟨_, _, rfl, rfl, related⟩⟩
  | stopped stop dialogue => exact .inl ⟨_, rfl, stop⟩
  | @ask _ _ request resume resume' _ step =>
    rw [refusal?, refusal?, Dialogue.run, Dialogue.run]
    generalize (handler.answer request).run.run state = answered
    obtain ⟨outcome, after⟩ := answered
    cases outcome with
    | ok answer => exact step answer after
    | error error => exact .inr ⟨rfl, .inl ⟨rfl, rfl, rfl⟩⟩

/-- Dialogues that refuse alike run alike with every handler, unless the first one stops. -/
theorem Alike.run {first second : Dialogue α β} (alike : first.Alike stops Eq results second)
    (handler : Handler σ ε α) (state : σ) :
    (∃ error, first.refusal? handler state = some error ∧ stops error) ∨
      ((first.run handler state).outcome = (second.run handler state).outcome ∧
        (first.run handler state).state = (second.run handler state).state) := by
  rcases alike.run_cases handler state with
    stop | ⟨same, ⟨-, -, outcome⟩ | ⟨error, _, refused, refused', rfl⟩⟩
  · exact .inl stop
  · exact .inr ⟨outcome, same⟩
  · exact .inr ⟨(run_of_refusal? refused).trans (run_of_refusal? refused').symm, same⟩

section Leads

variable {handler : Handler σ ε α} {leads : σ → σ → Prop} (refl : ∀ state, leads state state)
  (trans : ∀ first second third, leads first second → leads second third → leads first third)
  (answers : ∀ request, (handler.answer request).Leads leads)

include refl trans answers

/-- Where the answers of a handler lead, all dialogues lead. -/
theorem run_leads (dialogue : Dialogue α β) (state : σ) :
    leads state (dialogue.run handler state).state := by
  induction dialogue generalizing state with
  | done cursor outcome => exact refl state
  | ask cursor request resume step =>
    have led := answers request state
    rw [run]
    generalize (handler.answer request).run.run state = answered at led
    obtain ⟨outcome, after⟩ := answered
    cases outcome with
    | ok answer => exact trans _ _ _ led (step answer after)
    | error error => exact led

/-- The first of two dialogues that are alike leads no further than the second. -/
theorem Alike.run_leads {first second : Dialogue α β}
    (alike : first.Alike stops refusals results second) (state : σ) :
    leads (first.run handler state).state (second.run handler state).state := by
  induction alike generalizing state with
  | result related => exact refl state
  | refusal related => exact refl state
  | stopped stop dialogue => exact Dialogue.run_leads refl trans answers dialogue state
  | @ask _ _ request resume resume' _ step =>
    rw [Dialogue.run, Dialogue.run]
    generalize (handler.answer request).run.run state = answered
    obtain ⟨outcome, after⟩ := answered
    cases outcome with
    | ok answer => exact step answer after
    | error error => exact refl after

end Leads

end Dialogue

/-! ### Cursors -/

/-- Holds of a relation between cursors that show the same tokens, and go on doing so: both go on to
related cursors, or refuse alike, or the first one stops. -/
structure Cursor.Simulation (stops : ParseError → Prop)
    (refusals : ParseError → ParseError → Prop) (related : Cursor → Cursor → Prop) : Prop where
  token : ∀ {cursor cursor'}, related cursor cursor' → cursor.token = cursor'.token
  placed : ∀ {cursor cursor'}, related cursor cursor' → cursor.Placed ∧ cursor'.Placed
  next : ∀ {cursor cursor'}, related cursor cursor' →
    (∃ after after', cursor.next = .ok after ∧ cursor'.next = .ok after' ∧ related after after') ∨
      (∃ error error', cursor.next = .error error ∧ cursor'.next = .error error' ∧
        refusals error error') ∨
      ∃ error, cursor.next = .error error ∧ stops error
  refused : ∀ {cursor cursor'}, related cursor cursor' → ∀ expected,
    refusals (cursor.refusal expected) (cursor'.refusal expected)
  setDepth : ∀ {cursor cursor'}, related cursor cursor' → ∀ depth depth',
    related { cursor with depth } { cursor' with depth := depth' }

namespace Parser

/-! ### Parsers -/

section Simulation

variable {stops : ParseError → Prop} {refusals : ParseError → ParseError → Prop}
  {related : Cursor → Cursor → Prop}

/-- Holds of related cursors that have been reached from two others, with no reading more ahead. -/
structure Onward (related : Cursor → Cursor → Prop) (cursor cursor' after after' : Cursor) :
    Prop where
  related : related after after'
  fewer : after.remaining ≤ cursor.remaining
  fewer' : after'.remaining ≤ cursor'.remaining

theorem Onward.here {cursor cursor' : Cursor} (here : related cursor cursor') :
    Onward related cursor cursor' cursor cursor' :=
  ⟨here, Nat.le_refl _, Nat.le_refl _⟩

theorem Onward.trans {first first' second second' third third' : Cursor}
    (before : Onward related first first' second second')
    (onward : Onward related second second' third third') :
    Onward related first first' third third' :=
  ⟨onward.related, Nat.le_trans onward.fewer before.fewer,
    Nat.le_trans onward.fewer' before.fewer'⟩

/-- Holds of two parsers that lead from related cursors to dialogues that are alike. -/
def Alike (stops : ParseError → Prop) (refusals : ParseError → ParseError → Prop)
    (related : Cursor → Cursor → Prop) (parser parser' : Parser α β) : Prop :=
  ∀ cursor cursor', related cursor cursor' →
    (parser cursor).Alike stops refusals (fun _ => Onward related cursor cursor') (parser' cursor')

theorem Alike.bind {parser parser' : Parser α γ} {next next' : γ → Parser α β}
    (first : Alike stops refusals related parser parser')
    (rest : ∀ value, Alike stops refusals related (next value) (next' value)) :
    Alike stops refusals related (parser >>= next) (parser' >>= next') := by
  intro cursor cursor' here
  refine (first cursor cursor' here).andThen fun value after after' onward => ?_
  exact (rest value after after' onward.related).mono fun _ _ _ => onward.trans

theorem pure_alike (value : β) :
    Alike stops refusals related (pure value : Parser α β) (pure value) :=
  fun _ _ here => .result (.here here)

theorem ask_alike (request : Request α) :
    Alike stops refusals related (ask request) (ask request) :=
  fun _ _ here => .ask fun _ => .result (.here here)

/-- A loop and what comes after it. Each side has a bound of its own. -/
theorem ahead_alike {loop loop' : List Scanned → Parser α γ} {next next' : γ → Parser α β}
    (turns : ∀ bound bound' cursor cursor', related cursor cursor' →
      cursor.remaining ≤ bound.length → cursor'.remaining ≤ bound'.length →
        (loop bound cursor).Alike stops refusals (fun _ => Onward related cursor cursor')
          (loop' bound' cursor'))
    (rest : ∀ value, Alike stops refusals related (next value) (next' value)) :
    Alike stops refusals related (do next (← loop (← ahead))) (do next' (← loop' (← ahead))) := by
  have loops : Alike stops refusals related (do loop (← ahead)) (do loop' (← ahead)) :=
    fun cursor cursor' here =>
      turns _ _ cursor cursor' here cursor.remaining_le cursor'.remaining_le
  rw [← bind_assoc, ← bind_assoc]
  exact loops.bind rest

variable (simulation : Cursor.Simulation stops refusals related)

include simulation

/-- Parsers that look at the token only see the same. -/
theorem look_alike {next next' : Cursor → Parser α β}
    (alike : ∀ cursor cursor', cursor.token = cursor'.token →
      Alike stops refusals related (next cursor) (next' cursor')) :
    Alike stops refusals related (Parser.cursor >>= next) (Parser.cursor >>= next') :=
  fun cursor cursor' here => alike cursor cursor' (simulation.token here) cursor cursor' here

/-- Passing over a token leads to the next cursors. The token that is kept meanwhile has no part in
it. -/
theorem advance_passes {cursor cursor' kept kept' : Cursor} (here : related cursor cursor')
    (same : kept.next = cursor.next) (same' : kept'.next = cursor'.next) :
    (advance kept : Dialogue α Unit).Alike stops refusals
      (fun _ after after' => related after after' ∧ cursor.next = .ok after ∧
        cursor'.next = .ok after') (advance kept') := by
  rcases simulation.next here with ⟨after, after', next, next', there⟩ |
    ⟨error, error', next, next', refused⟩ | ⟨error, next, stop⟩
  · rw [advance_of_ok (same.trans next), advance_of_ok (same'.trans next')]
    exact .result ⟨there, next, next'⟩
  · obtain ⟨left, refuses⟩ := @advance_of_error α kept error (same.trans next)
    obtain ⟨left', refuses'⟩ := @advance_of_error α kept' error' (same'.trans next')
    rw [refuses, refuses']
    exact .refusal refused
  · obtain ⟨left, refuses⟩ := @advance_of_error α kept error (same.trans next)
    rw [refuses]
    exact .stopped stop _

theorem passed_onward {cursor cursor' after after' : Cursor} (here : related cursor cursor')
    (passed : related after after' ∧ cursor.next = .ok after ∧ cursor'.next = .ok after') :
    Onward related cursor cursor' after after' := by
  obtain ⟨placed, placed'⟩ := simulation.placed here
  obtain ⟨there, next, next'⟩ := passed
  exact ⟨there, placed.remaining_le_of_passes (Cursor.passes_singleton.mpr ⟨rfl, next⟩),
    placed'.remaining_le_of_passes (Cursor.passes_singleton.mpr ⟨rfl, next'⟩)⟩

theorem advance_alike : Alike stops refusals related (advance : Parser α Unit) advance :=
  fun _ _ here => (advance_passes simulation here rfl rfl).mono fun _ _ _ =>
    passed_onward simulation here

theorem consume_alike : Alike stops refusals related (consume : Parser α Unit) consume := by
  intro cursor cursor' here
  have passes := @advance_passes α _ _ _ simulation cursor cursor'
    { cursor with token := .endOfInput } { cursor' with token := .endOfInput } here rfl rfl
  rw [consume, move_bind, move_bind]
  exact passes.mono fun _ _ _ => passed_onward simulation here

theorem unexpected_alike (expected : Expected) :
    Alike stops refusals related (unexpected expected : Parser α β) (unexpected expected) := by
  intro cursor cursor' here
  rw [unexpected_eq, unexpected_eq]
  exact .refusal (simulation.refused here expected)

theorem expect_alike (token : Token) (expected : Expected) :
    Alike stops refusals related (expect token expected : Parser α Unit)
      (expect token expected) := by
  refine look_alike simulation fun cursor cursor' same => ?_
  rw [← same]
  by_cases there : cursor.token = token
  · rw [if_pos there]
    exact advance_alike simulation
  · rw [if_neg there]
    exact unexpected_alike simulation expected

/-! ### Loops -/

/-- A turn of a loop that begins with passing over a token uses up no more than one item of each
bound. -/
theorem turn_enough {cursor cursor' after after' last last' : Cursor} {item item' : Scanned}
    {bound bound' : List Scanned} (here : related cursor cursor')
    (more : cursor.token ≠ .endOfInput)
    (passed : related after after' ∧ cursor.next = .ok after ∧ cursor'.next = .ok after')
    (onward : Onward related after after' last last')
    (enough : cursor.remaining ≤ (item :: bound).length)
    (enough' : cursor'.remaining ≤ (item' :: bound').length) :
    last.remaining ≤ bound.length ∧ last'.remaining ≤ bound'.length := by
  obtain ⟨placed, placed'⟩ := simulation.placed here
  have fewer := placed.remaining_lt passed.2.1 more
  have fewer' := placed'.remaining_lt passed.2.2 (simulation.token here ▸ more)
  have last_fewer := onward.fewer
  have last_fewer' := onward.fewer'
  rw [List.length_cons] at enough enough'
  constructor <;> omega

omit simulation in
/-- The bound of a loop does not run out before a token that it goes on with. -/
theorem exists_turn {cursor : Cursor} (more : cursor.token ≠ .endOfInput) {bound : List Scanned}
    (enough : cursor.remaining ≤ bound.length) : ∃ item rest, bound = item :: rest := by
  cases bound with
  | nil => exact absurd (Cursor.remaining_eq_zero.mp (Nat.le_zero.mp enough)) more
  | cons item rest => exact ⟨item, rest, rfl⟩

omit simulation in
theorem names_of_other {cursor : Cursor} (other : cursor.token ≠ .dot) (bound : List Scanned)
    (before : List String) :
    (names bound before cursor : Dialogue α _) = .done cursor (.ok before.reverse) := by
  cases bound with
  | nil => rfl
  | cons item bound =>
    rw [names, cursor_bind, if_neg other]
    rfl

theorem names_alike (bound bound' : List Scanned) (before : List String) (cursor cursor' : Cursor)
    (here : related cursor cursor') (enough : cursor.remaining ≤ bound.length)
    (enough' : cursor'.remaining ≤ bound'.length) :
    (names bound before cursor : Dialogue α _).Alike stops refusals
      (fun _ => Onward related cursor cursor') (names bound' before cursor') := by
  induction bound generalizing bound' before cursor cursor' with
  | nil =>
    have ended := Cursor.remaining_eq_zero.mp (Nat.le_zero.mp enough)
    have ended' := (simulation.token here).symm.trans ended
    rw [names_of_other (by simp [ended]), names_of_other (by simp [ended'])]
    exact .result (.here here)
  | cons item bound step =>
    have same := simulation.token here
    by_cases dot : cursor.token = .dot
    · have more : cursor.token ≠ .endOfInput := by simp [dot]
      obtain ⟨item', bound', rfl⟩ := exists_turn (same ▸ more) enough'
      rw [names, cursor_bind, if_pos dot, names, cursor_bind, if_pos (same ▸ dot)]
      refine (advance_passes simulation here rfl rfl).andThen fun _ after after' passed => ?_
      have passed_dot := passed_onward simulation here passed
      rw [cursor_bind, cursor_bind, ← simulation.token passed.1]
      cases after.token with
      | name letters =>
        refine (consume_alike simulation after after' passed.1).andThen
          fun _ last last' onward => ?_
        obtain ⟨few, few'⟩ := turn_enough simulation here more passed onward enough enough'
        have turn := step bound' (letters :: before) last last' onward.related few few'
        exact turn.mono fun _ _ _ rest => passed_dot.trans (onward.trans rest)
      | _ =>
        refine (unexpected_alike simulation .segment after after' passed.1).mono ?_
        exact fun _ _ _ rest => passed_dot.trans rest
    · rw [names_of_other dot, names_of_other (same ▸ dot)]
      exact .result (.here here)

section Inner

variable {expression expression' : Parser α α}
  (inner : Alike stops refusals related expression expression')

include inner

omit simulation inner in
theorem moreArguments_of_other {cursor : Cursor} (other : cursor.token ≠ .comma)
    (bound : List Scanned) (before : List α) :
    moreArguments expression bound before cursor = .done cursor (.ok before.reverse) := by
  cases bound with
  | nil => rfl
  | cons item bound =>
    rw [moreArguments, cursor_bind, if_neg other]
    rfl

theorem moreArguments_alike (bound bound' : List Scanned) (before : List α)
    (cursor cursor' : Cursor) (here : related cursor cursor')
    (enough : cursor.remaining ≤ bound.length) (enough' : cursor'.remaining ≤ bound'.length) :
    (moreArguments expression bound before cursor).Alike stops refusals
      (fun _ => Onward related cursor cursor')
      (moreArguments expression' bound' before cursor') := by
  induction bound generalizing bound' before cursor cursor' with
  | nil =>
    have ended := Cursor.remaining_eq_zero.mp (Nat.le_zero.mp enough)
    have ended' := (simulation.token here).symm.trans ended
    rw [moreArguments_of_other (by simp [ended]), moreArguments_of_other (by simp [ended'])]
    exact .result (.here here)
  | cons item bound step =>
    have same := simulation.token here
    by_cases comma : cursor.token = .comma
    · have more : cursor.token ≠ .endOfInput := by simp [comma]
      obtain ⟨item', bound', rfl⟩ := exists_turn (same ▸ more) enough'
      rw [moreArguments, cursor_bind, if_pos comma, moreArguments, cursor_bind,
        if_pos (same ▸ comma)]
      refine (advance_passes simulation here rfl rfl).andThen fun _ after after' passed => ?_
      refine (inner after after' passed.1).andThen fun value last last' onward => ?_
      obtain ⟨few, few'⟩ := turn_enough simulation here more passed onward enough enough'
      have turn := step bound' (value :: before) last last' onward.related few few'
      refine turn.mono fun _ _ _ rest => ?_
      exact (passed_onward simulation here passed).trans (onward.trans rest)
    · rw [moreArguments_of_other comma, moreArguments_of_other (same ▸ comma)]
      exact .result (.here here)

theorem arguments_alike :
    Alike stops refusals related (arguments expression) (arguments expression') := by
  have closed (values : List α) : Alike stops refusals related
      (do expect .closeParen .separatorOrClosing; pure values : Parser α (List α))
      (do expect .closeParen .separatorOrClosing; pure values) :=
    (expect_alike simulation .closeParen .separatorOrClosing).bind fun _ => pure_alike values
  unfold arguments
  refine look_alike simulation fun cursor cursor' same => ?_
  dsimp only
  rw [← same]
  by_cases close : cursor.token = .closeParen
  · rw [if_pos close, if_pos close]
    exact (pure_alike []).bind closed
  · rw [if_neg close, if_neg close]
    refine inner.bind fun value => ahead_alike (fun bound bound' => ?_) closed
    exact moreArguments_alike simulation inner bound bound' [value]

theorem call_alike :
    Alike stops refusals related (arguments? expression) (arguments? expression') := by
  unfold arguments?
  refine look_alike simulation fun cursor cursor' same => ?_
  rw [← same]
  by_cases opens : cursor.token = .openParen
  · rw [if_pos opens, if_pos opens]
    exact (advance_alike simulation).bind fun _ =>
      (arguments_alike simulation inner).bind fun values => pure_alike (some values)
  · rw [if_neg opens, if_neg opens]
    exact pure_alike none

theorem atom_alike : Alike stops refusals related (atom expression) (atom expression') := by
  have consumed := @consume_alike α _ _ _ simulation
  unfold atom
  refine look_alike simulation fun cursor cursor' same => ?_
  rw [← same]
  cases cursor.token with
  | number lexeme =>
    exact consumed.bind fun _ => (ask_alike (.number lexeme)).bind fun value =>
      ask_alike (.atom (.literal value))
  | text content =>
    exact consumed.bind fun _ => (ask_alike (.text content)).bind fun value =>
      ask_alike (.atom (.literal value))
  | name first =>
    refine consumed.bind fun _ => ahead_alike (fun bound bound' => ?_) fun segments => ?_
    · exact names_alike simulation bound bound' [first]
    · exact (ask_alike (.reference segments)).bind fun reference =>
        (call_alike simulation inner).bind fun arguments => ask_alike _
  | openParen =>
    refine consumed.bind fun _ => inner.bind fun value =>
      (expect_alike simulation .closeParen .closing).bind fun _ => ask_alike _
  | _ => exact unexpected_alike simulation .expression

/-! ### Layers -/

omit simulation inner in
/-- Whether an operator of a layer is passed over depends on the token. -/
theorem operator?_cases (rule : Rule) (token : Token) :
    (∀ cursor : Cursor, cursor.token = token →
        (operator? rule cursor : Dialogue α _) = .done cursor (.ok none)) ∨
      token ≠ .endOfInput ∧ ∃ operator, ∀ cursor : Cursor, cursor.token = token →
        operator? rule cursor = (do advance; pure (some operator) : Parser α _) cursor := by
  by_cases found : ∃ operator ∈ rule.operators, token = .operator operator
  · obtain ⟨operator, member, rfl⟩ := found
    refine .inr ⟨by simp, operator, fun cursor here => ?_⟩
    rw [operator?_of_operator rule here, if_pos member]
  · refine .inl fun cursor here => operator?_of_other fun operator member is_operator => ?_
    exact found ⟨operator, member, here.symm.trans is_operator⟩

omit simulation inner in
theorem chain_of_other {rule : Rule} {cursor : Cursor}
    (other : (operator? rule cursor : Dialogue α _) = .done cursor (.ok none))
    (bound : List Scanned) (before : List (String × α)) :
    chain rule expression bound before cursor = .done cursor (.ok before.reverse) := by
  cases bound with
  | nil => rfl
  | cons item bound =>
    show Dialogue.andThen (operator? rule cursor) _ = _
    rw [other]
    rfl

omit simulation inner in
theorem chain_of_operator {rule : Rule} {cursor : Cursor} {operator : Operator}
    (found : operator? rule cursor = (do advance; pure (some operator) : Parser α _) cursor)
    (item : Scanned) (bound : List Scanned) (before : List (String × α)) :
    chain rule expression (item :: bound) before cursor =
      (do
        advance
        let value ← expression
        chain rule expression bound ((operator.symbol, value) :: before) :
        Parser α _) cursor := by
  show Dialogue.andThen (operator? rule cursor) _ = _
  rw [found]
  exact Dialogue.andThen_assoc ..

theorem chain_alike (rule : Rule) (bound bound' : List Scanned) (before : List (String × α))
    (cursor cursor' : Cursor) (here : related cursor cursor')
    (enough : cursor.remaining ≤ bound.length) (enough' : cursor'.remaining ≤ bound'.length) :
    (chain rule expression bound before cursor).Alike stops refusals
      (fun _ => Onward related cursor cursor')
      (chain rule expression' bound' before cursor') := by
  induction bound generalizing bound' before cursor cursor' with
  | nil =>
    have ended := Cursor.remaining_eq_zero.mp (Nat.le_zero.mp enough)
    rcases @operator?_cases α rule cursor.token with other | ⟨more, -⟩
    · rw [chain_of_other (other cursor rfl),
        chain_of_other (other cursor' (simulation.token here).symm)]
      exact .result (.here here)
    · exact absurd ended more
  | cons item bound step =>
    have same := simulation.token here
    rcases @operator?_cases α rule cursor.token with other | ⟨more, operator, found⟩
    · rw [chain_of_other (other cursor rfl), chain_of_other (other cursor' same.symm)]
      exact .result (.here here)
    · obtain ⟨item', bound', rfl⟩ := exists_turn (same ▸ more) enough'
      rw [chain_of_operator (found cursor rfl), chain_of_operator (found cursor' same.symm)]
      refine (advance_passes simulation here rfl rfl).andThen fun _ after after' passed => ?_
      refine (inner after after' passed.1).andThen fun value last last' onward => ?_
      obtain ⟨few, few'⟩ := turn_enough simulation here more passed onward enough enough'
      have turn := step bound' ((operator.symbol, value) :: before) last last' onward.related few
        few'
      refine turn.mono fun _ _ _ rest => ?_
      exact (passed_onward simulation here passed).trans (onward.trans rest)

end Inner

theorem operator?_alike (rule : Rule) :
    Alike stops refusals related (operator? rule : Parser α _) (operator? rule) := by
  intro cursor cursor' here
  have same := simulation.token here
  rcases @operator?_cases α rule cursor.token with other | ⟨more, operator, found⟩
  · rw [other cursor rfl, other cursor' same.symm]
    exact .result (.here here)
  · rw [found cursor rfl, found cursor' same.symm]
    exact (advance_alike simulation).bind (fun _ => pure_alike (some operator)) cursor cursor' here

theorem layers_alike {deeper deeper' : List Rule → Parser α α}
    (inner : ∀ rules, Alike stops refusals related (deeper rules) (deeper' rules))
    (rules : List Rule) :
    Alike stops refusals related (layers deeper rules) (layers deeper' rules) := by
  induction rules with
  | nil => exact atom_alike simulation (inner Rule.precedence)
  | cons rule tighter step =>
    unfold layers
    cases rule.kind with
    | binary =>
      refine step.bind fun first => ahead_alike (fun bound bound' => ?_) fun rest => ask_alike _
      exact chain_alike simulation step rule bound bound' []
    | unary =>
      refine (operator?_alike simulation rule).bind fun found => ?_
      cases found with
      | some operator => exact (inner (rule :: tighter)).bind fun operand => ask_alike _
      | none => exact step.bind fun operand => ask_alike _

/-! ### Nesting -/

/-- Expressions are alike if the first one stops for want of a level before the second one, or both
refuse there. -/
theorem nested_alike {limit limit' : Nat} (room room' : Nat)
    (tooDeep : ∀ cursor cursor', related cursor cursor' →
      stops ⟨.nestingTooDeep limit, cursor.start⟩ ∧ room ≤ room' ∨
        refusals ⟨.nestingTooDeep limit, cursor.start⟩ ⟨.nestingTooDeep limit', cursor'.start⟩ ∧
          room = room')
    (rules : List Rule) :
    Alike stops refusals related (nested limit room rules : Parser α α)
      (nested limit' room' rules) := by
  induction room generalizing room' rules with
  | zero =>
    intro cursor cursor' here
    rcases tooDeep cursor cursor' here with ⟨stop, -⟩ | ⟨refused, same⟩
    · exact .stopped stop _
    · subst same
      exact .refusal refused
  | succ room deeper =>
    intro cursor cursor' here
    obtain ⟨room', rfl⟩ : ∃ fewer, room' = fewer + 1 := by
      have some_room : 0 < room' := by
        rcases tooDeep cursor cursor' here with ⟨-, less⟩ | ⟨-, same⟩ <;> omega
      exact ⟨room' - 1, (Nat.succ_pred_eq_of_pos some_room).symm⟩
    have deeper_alike := deeper room' fun cursor cursor' here =>
      (tooDeep cursor cursor' here).imp (fun stop => ⟨stop.1, Nat.le_of_succ_le_succ stop.2⟩)
        fun refused => ⟨refused.1, Nat.succ.inj refused.2⟩
    rw [nested, nested]
    dsimp only
    rw [move_bind, move_bind]
    refine (layers_alike simulation deeper_alike rules _ _
      (simulation.setDepth here _ _)).andThen fun value after after' onward => ?_
    rw [move_bind, move_bind]
    exact .result ⟨simulation.setDepth onward.related _ _, onward.fewer, onward.fewer'⟩

/-- Two parses of whole texts are alike. -/
theorem complete_alike {limit limit' : Nat} {cursor cursor' : Cursor}
    (here : related cursor cursor')
    (tooDeep : ∀ reached reached', related reached reached' →
      stops ⟨.nestingTooDeep limit, reached.start⟩ ∧
          limit - cursor.depth ≤ limit' - cursor'.depth ∨
        refusals ⟨.nestingTooDeep limit, reached.start⟩ ⟨.nestingTooDeep limit', reached'.start⟩ ∧
          limit - cursor.depth = limit' - cursor'.depth) :
    (complete limit cursor : Dialogue α α).Alike stops refusals
      (fun _ => Onward related cursor cursor') (complete limit' cursor') := by
  have read := @nested_alike α _ _ _ simulation limit limit' _ _ tooDeep Rule.precedence
  exact (read.bind fun value =>
    (expect_alike simulation .endOfInput .endOfInput).bind fun _ => pure_alike value)
      cursor cursor' here

end Simulation

end Parser

end Formula
