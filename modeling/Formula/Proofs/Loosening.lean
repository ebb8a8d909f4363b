/-
**Looser options lift two refusals, and change nothing else.**

With comments passed over, a text has the tokens that it had before, up to the first character that
begins a comment (`Tape.Loosens`); there the text was refused, and may now go on. With more levels
at hand, a text goes on where it was refused for its depth. So a parse that is refused for neither
makes the same hook calls, with the same outcome and context, and in any case the hook calls that
are made first are the same.

* `Scanner.tape_loosens`: the readings of a text with comments and without.
* `compile_loosened`: compilations under stricter and looser options.
-/

import Formula.Proofs.Comparison
import Formula.Proofs.Scanner

namespace Formula

variable {σ κ ε α : Type}

/-- Holds of the refusals that looser options may lift: of a depth and of the beginning of a
comment. -/
def ParseError.Liftable (error : ParseError) : Prop :=
  error.cause = .unexpectedCharacter '#' ∨ ∃ limit, error.cause = .nestingTooDeep limit

/-! ### Readings -/

/-- Holds of tapes that are the same, or the same until the first one ends where a comment
begins. -/
def Tape.Loosens (strict loose : Tape) : Prop :=
  strict = loose ∨
    (∃ position, strict.last.outcome = .error ⟨.unexpectedCharacter '#', position⟩) ∧
      strict.items <+: loose.items

/-- The next readings are the same, or the first one is where a comment begins. -/
theorem Tape.Loosens.next {strict loose : Tape} (loosens : strict.Loosens loose) :
    strict.next.1 = loose.next.1 ∧ strict.next.2.Loosens loose.next.2 ∨
      ∃ position, strict.next.1.outcome = .error ⟨.unexpectedCharacter '#', position⟩ := by
  rcases loosens with rfl | ⟨ends, more, same⟩
  · exact .inl ⟨rfl, .inl rfl⟩
  · obtain ⟨items, last⟩ := strict
    obtain ⟨items', last'⟩ := loose
    cases items with
    | nil => exact .inr ends
    | cons item items =>
      cases show item :: (items ++ more) = items' from same
      exact .inl ⟨rfl, .inr ⟨ends, List.prefix_append items more⟩⟩

namespace Scanner

/-- Without comments, the next token begins where it begins with comments, or a comment begins
there. -/
theorem pastTrivia_loosens (offset : Nat) (text : List Char) :
    pastTrivia true false offset text = pastTrivia false false offset text ∨
      ∃ rest, (pastTrivia false false offset text).rest = '#' :: rest := by
  induction text generalizing offset with
  | nil => exact .inl rfl
  | cons character text step =>
    rw [pastTrivia, pastTrivia, if_neg Bool.false_ne_true, if_neg Bool.false_ne_true]
    by_cases blank : Text.isBlank character = true
    · rw [if_pos blank, if_pos blank]
      exact step _
    · rw [if_neg blank, if_neg blank, Bool.false_and, if_neg Bool.false_ne_true]
      by_cases begins : character = '#'
      · exact .inr ⟨text, by rw [begins]⟩
      · have other : (true && character == '#') = false := by
          rw [beq_false_of_ne begins, Bool.and_false]
        rw [other]
        exact .inl rfl

theorem next_loosens (spot : Spot) :
    (⟨spot, true⟩ : Scanner).next.1 = (⟨spot, false⟩ : Scanner).next.1 ∧
        (⟨spot, true⟩ : Scanner).next.2 = ⟨(⟨spot, false⟩ : Scanner).next.2.spot, true⟩ ∨
      ∃ position, (⟨spot, false⟩ : Scanner).next.1.outcome =
        .error ⟨.unexpectedCharacter '#', position⟩ := by
  rcases pastTrivia_loosens spot.offset spot.rest with same | ⟨rest, begins⟩
  · have spots : (⟨spot, true⟩ : Scanner).tokenSpot = (⟨spot, false⟩ : Scanner).tokenSpot := same
    left
    unfold next
    rw [spots]
    exact ⟨rfl, rfl⟩
  · have spots : (⟨spot, false⟩ : Scanner).tokenSpot.rest = '#' :: rest := begins
    right
    refine ⟨(⟨spot, false⟩ : Scanner).tokenSpot.offset, ?_⟩
    show (scan (⟨spot, false⟩ : Scanner).tokenSpot).1 = _
    rw [scan, spots]
    rfl

/-- The readings of a text with comments passed over begin with those without, or are the same. -/
theorem tape_loosens (spot : Spot) :
    (⟨spot, false⟩ : Scanner).tape.Loosens (⟨spot, true⟩ : Scanner).tape := by
  suffices all : ∀ scanner : Scanner, scanner.comments = false →
      scanner.tape.Loosens (⟨scanner.spot, true⟩ : Scanner).tape from all ⟨spot, false⟩ rfl
  intro scanner
  induction scanner using tape_induction with
  | last scanner kind =>
    obtain ⟨spot, comments⟩ := scanner
    rintro ⟨⟩
    show (⟨spot, false⟩ : Scanner).tape.Loosens (⟨spot, true⟩ : Scanner).tape
    rcases next_loosens spot with ⟨same, -⟩ | comment
    · have kind' : (⟨spot, true⟩ : Scanner).next.1.isLast = true := by rw [same, kind]
      rw [tape_of_last kind, tape_of_last kind', same]
      exact .inl rfl
    · rw [tape_of_last kind]
      exact .inr ⟨comment, List.nil_prefix⟩
  | more scanner kind rest =>
    obtain ⟨spot, comments⟩ := scanner
    rintro ⟨⟩
    show (⟨spot, false⟩ : Scanner).tape.Loosens (⟨spot, true⟩ : Scanner).tape
    rcases next_loosens spot with ⟨same, after⟩ | ⟨position, comment⟩
    · have kind' : (⟨spot, true⟩ : Scanner).next.1.isLast = false := by rw [same, kind]
      rw [tape_of_more kind, tape_of_more kind', same, after]
      rcases rest rfl with equal | ⟨ends, prefixed⟩
      · rw [← equal]
        exact .inl rfl
      · exact .inr ⟨ends, List.cons_prefix_cons.mpr ⟨rfl, prefixed⟩⟩
    · rw [Scanned.isLast, comment] at kind
      cases kind

end Scanner

/-- The readings of a text under looser options. -/
theorem Tape.ofText_loosens (text : String) {strict loose : Options}
    (comments : loose.comments = strict.comments ∨ loose.comments = true) :
    (ofText text strict.comments).Loosens (ofText text loose.comments) := by
  rcases comments with same | passed
  · rw [same]
    exact .inl rfl
  · rw [passed]
    cases strict.comments with
    | true => exact .inl rfl
    | false => exact Scanner.tape_loosens (.start text)

/-! ### Cursors -/

/-- Holds of cursors at one token, with readings ahead that are the same up to the first comment. -/
structure Cursor.Loosens (strict loose : Cursor) : Prop where
  token : strict.token = loose.token
  start : strict.start = loose.start
  placed : strict.Placed
  placed' : loose.Placed
  tape : strict.tape.Loosens loose.tape

theorem Cursor.next_of_tape {cursor : Cursor} {start : Nat} {token : Token}
    (found : cursor.tape.next.1 = ⟨start, .ok token⟩) :
    cursor.next = .ok { cursor with token, start, tape := cursor.tape.next.2 } := by
  unfold Cursor.next
  generalize cursor.tape.next = read at found ⊢
  obtain ⟨item, tape⟩ := read
  cases found
  rfl

theorem Cursor.next_error_of_tape {cursor : Cursor} {start : Nat} {error : ParseError}
    (found : cursor.tape.next.1 = ⟨start, .error error⟩) : cursor.next = .error error := by
  unfold Cursor.next
  generalize cursor.tape.next = read at found ⊢
  obtain ⟨item, tape⟩ := read
  cases found
  rfl

/-- Cursors go on alike until a comment begins. -/
theorem Cursor.loosens_simulation : Simulation ParseError.Liftable Eq Loosens where
  token here := here.token
  placed here := ⟨here.placed, here.placed'⟩
  refused here expected := by rw [refusal, refusal, ← here.token, ← here.start]
  setDepth here _ _ :=
    ⟨here.token, here.start, here.placed.setDepth _, here.placed'.setDepth _, here.tape⟩
  next {strict loose} here := by
    cases read : strict.tape.next.1 with
    | mk start outcome =>
      rcases here.tape.next with ⟨same, tapes⟩ | ⟨position, comment⟩
      · cases outcome with
        | ok token =>
          have next := next_of_tape read
          have next' := next_of_tape (same.symm.trans read)
          exact .inl ⟨_, _, next, next', rfl, rfl, here.placed.next next, here.placed'.next next',
            tapes⟩
        | error error =>
          exact .inr (.inl ⟨error, error, next_error_of_tape read,
            next_error_of_tape (same.symm.trans read), rfl⟩)
      · rw [read] at comment
        cases comment
        exact .inr (.inr ⟨_, next_error_of_tape read, .inl rfl⟩)

/-! ### Parses -/

section Options

variable (text : String) {strict loose : Options} (deeper : strict.depthLimit ≤ loose.depthLimit)
  (comments : loose.comments = strict.comments ∨ loose.comments = true)

include deeper comments

/-- The dialogues of a text under stricter and looser options are alike. -/
theorem Dialogue.ofText_loosens :
    (ofText text strict : Dialogue α α).Alike ParseError.Liftable Eq (fun _ _ _ => True)
      (ofText text loose) := by
  refine ofText_alike Cursor.loosens_simulation ?_ fun _ _ _ => .inl ⟨.inr ⟨_, rfl⟩, deeper⟩
  exact ⟨rfl, rfl, Cursor.placed_before text strict, Cursor.placed_before text loose,
    Tape.ofText_loosens text comments⟩

theorem parse_loosened (handler : Handler σ ε α) (state : σ) :
    (∃ error, parseRefusal? handler text strict state = some error ∧ error.Liftable) ∨
      parse handler text strict state = parse handler text loose state := by
  rw [parseRefusal?_eq, parse_eq_run, parse_eq_run]
  have alike := @Dialogue.ofText_loosens α text strict loose deeper comments
  exact (alike.run handler state).imp_right fun same => Prod.ext same.1 same.2

theorem parse_loosened_leads {handler : Handler σ ε α} {leads : σ → σ → Prop}
    (refl : ∀ state, leads state state)
    (trans : ∀ first second third, leads first second → leads second third → leads first third)
    (answers : ∀ request, (handler.answer request).Leads leads) (state : σ) :
    leads (parse handler text strict state).2 (parse handler text loose state).2 := by
  rw [parse_eq_run, parse_eq_run]
  have alike := @Dialogue.ofText_loosens α text strict loose deeper comments
  exact alike.run_leads refl trans answers state

end Options

/-! ### Compilations -/

/-- **Looser options lift two refusals, and change nothing else.** A compilation that ends with
neither of them makes the same hook calls under looser options, and has the same outcome and
context. In any case its hook calls are made first under looser options as well. -/
theorem compile_loosened (builder : Builder κ ε α) (text : String) (context : κ)
    (strict loose : Options) (deeper : strict.depthLimit ≤ loose.depthLimit)
    (comments : loose.comments = strict.comments ∨ loose.comments = true) :
    ((∀ error, parseRefusal? builder.handler text strict context = some error →
        ¬ error.Liftable) →
      hookCalls builder text strict context = hookCalls builder text loose context ∧
        (compile builder text strict context).context =
          (compile builder text loose context).context ∧
        (compile builder text strict context).outcome =
          (compile builder text loose context).outcome) ∧
    hookCalls builder text strict context <+: hookCalls builder text loose context := by
  have plain := parse_loosened text deeper comments builder.handler context
  have logged := parse_loosened text deeper comments builder.logged.handler ⟨context, []⟩
  rw [parseRefusal?_logged] at logged
  constructor
  · intro kept
    rcases plain with ⟨error, refused, liftable⟩ | same
    · exact absurd liftable (kept error refused)
    rcases logged with ⟨error, refused, liftable⟩ | same_log
    · exact absurd liftable (kept error refused)
    obtain ⟨outcome, after⟩ := compile_of_parse builder same
    exact ⟨congrArg HookLog.calls (compile_of_parse builder.logged same_log).2, after, outcome⟩
  · rcases logged with ⟨error, refused, -⟩ | same
    · -- The hook calls up to the refusal are made while the text is parsed.
      rw [← parseRefusal?_logged builder text strict ⟨context, []⟩] at refused
      have ended := (compile_of_failure builder.logged (parse_of_parseRefusal? refused)).2
      rw [hookCalls, ended]
      have grown : HookLog.Grows _ _ := parse_loosened_leads text deeper comments
        HookLog.grows_refl HookLog.grows_trans builder.logged_grows ⟨context, []⟩
      exact grown.trans (compile_log_grows builder text loose ⟨context, []⟩)
    · have same_calls : hookCalls builder text strict context =
          hookCalls builder text loose context :=
        congrArg HookLog.calls (compile_of_parse builder.logged same).2
      exact same_calls ▸ List.prefix_rfl

/-- A call is not refused with two levels and no comments, so its hooks are called alike by default;
after a sum that is, the hook calls go on. -/
theorem hookCalls_loosened_call :
    hookCalls (Builder.tree id) "f(1)" ⟨false, 2⟩ () = hookCalls (Builder.tree id) "f(1)" {} () ∧
      hookCalls (Builder.tree id) "1 + 2 # 3" ⟨false, 2⟩ () <+:
        hookCalls (Builder.tree id) "1 + 2 # 3" {} () := by
  have loosened (text : String) := compile_loosened (Builder.tree id) text () ⟨false, 2⟩ {}
    (by decide) (.inr rfl)
  have unrefused : parseRefusal? (Builder.tree id).handler "f(1)" ⟨false, 2⟩ () = none := by
    decide +kernel
  refine ⟨((loosened "f(1)").1 fun error refused => ?_).1, (loosened "1 + 2 # 3").2⟩
  rw [unrefused] at refused
  cases refused

end Formula
