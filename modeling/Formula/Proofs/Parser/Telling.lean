/-
**What every path through a dialogue keeps.**

A path goes from request to request and ends with a result or a refusal. Every step of it shows the
cursor further on in the text, and a refusal is at the cursor or behind it. So what is known of an
offset when a request is answered is known of the refusal that may follow.

* `Dialogue.Tells`: what the requests and the results on every path meet, with the offset reached.
  It goes through `do` (`Parser.tells_bind`).
* `Dialogue.Tells.run`: what the answers of a handler keep, a run keeps up to its refusal.
* `Parser.tells_advance` and the others: what the steps of the parser keep, which passes over the
  tokens of a text one by one.
-/

import Formula.Proofs.Parser.Steps
import Formula.Proofs.Scanner.Rising

namespace Formula

variable {σ ε α β γ : Type}

/-- Holds of the answers that give the reference with the segments asked for. -/
def Request.Names : (request : Request α) → request.Answer → Prop
  | reference segments, target => target.segments = segments
  | number _, _ | text _, _ | atom _, _ | reduce _ _, _ => True

namespace Dialogue

/-- Whatever is answered, as long as references are answered with what was asked for, every request
is one of `asks` and every result one of `results`; and each request, the result, and a refusal are
at an offset no less than the one before, the first of them no less than the given one. -/
def Tells (asks : Cursor → Request α → Prop) (results : β → Cursor → Prop) :
    Nat → Dialogue α β → Prop
  | low, done cursor (.ok result) => low ≤ cursor.start ∧ results result cursor
  | low, done _ (.error error) => low ≤ error.position
  | low, ask cursor request resume =>
    low ≤ cursor.start ∧ asks cursor request ∧
      ∀ answer, request.Names answer → (resume answer).Tells asks results cursor.start

variable {asks : Cursor → Request α → Prop} {results : β → Cursor → Prop} {low : Nat}
  {dialogue : Dialogue α β}

theorem Tells.weaken {high : Nat} (tells : dialogue.Tells asks results high) (lower : low ≤ high) :
    dialogue.Tells asks results low := by
  cases dialogue with
  | done cursor outcome =>
    cases outcome with
    | ok value => exact ⟨Nat.le_trans lower tells.1, tells.2⟩
    | error error => exact Nat.le_trans lower tells
  | ask cursor request resume => exact ⟨Nat.le_trans lower tells.1, tells.2⟩

theorem Tells.imp {asks' : Cursor → Request α → Prop} {results' : β → Cursor → Prop}
    (tells : dialogue.Tells asks results low)
    (ask : ∀ cursor request, asks cursor request → asks' cursor request)
    (result : ∀ value cursor, results value cursor → results' value cursor) :
    dialogue.Tells asks' results' low := by
  induction dialogue generalizing low with
  | done cursor outcome =>
    cases outcome with
    | ok value => exact ⟨tells.1, result _ _ tells.2⟩
    | error error => exact tells
  | ask cursor request resume step =>
    obtain ⟨reached, asked, rest⟩ := tells
    exact ⟨reached, ask _ _ asked, fun answer named => step answer (rest answer named)⟩

theorem Tells.mono {results' : β → Cursor → Prop} (tells : dialogue.Tells asks results low)
    (result : ∀ value cursor, results value cursor → results' value cursor) :
    dialogue.Tells asks results' low :=
  tells.imp (fun _ _ asked => asked) result

/-- What a dialogue meets, all its paths meet. -/
theorem Tells.and {asks' : Cursor → Request α → Prop} {results' : β → Cursor → Prop}
    {refusals : ParseError → Cursor → Prop} (tells : dialogue.Tells asks results low)
    (meets : dialogue.Meets asks' results' refusals) :
    dialogue.Tells (fun cursor request => asks cursor request ∧ asks' cursor request)
      (fun value cursor => results value cursor ∧ results' value cursor) low := by
  induction dialogue generalizing low with
  | done cursor outcome =>
    cases outcome with
    | ok value => exact ⟨tells.1, tells.2, meets⟩
    | error error => exact tells
  | ask cursor request resume step =>
    obtain ⟨reached, asked, rest⟩ := tells
    exact ⟨reached, ⟨asked, meets.1⟩,
      fun answer named => step answer (rest answer named) (meets.2 answer)⟩

theorem Tells.andThen {dialogue : Dialogue α γ} {next : γ → Cursor → Dialogue α β}
    (tells : dialogue.Tells asks
      (fun value cursor => (next value cursor).Tells asks results cursor.start) low) :
    (dialogue.andThen next).Tells asks results low := by
  induction dialogue generalizing low with
  | done cursor outcome =>
    cases outcome with
    | ok value => exact tells.2.weaken tells.1
    | error error => exact tells
  | ask cursor request resume step =>
    obtain ⟨reached, asked, rest⟩ := tells
    exact ⟨reached, asked, fun answer named => step answer (rest answer named)⟩

/-- A handler that answers all requests of a dialogue, references with what was asked for, leads to
a result or to a refusal. What its answers keep, from offset to offset, holds in the end; after a
refusal it holds at the position of the refusal. -/
theorem Tells.run {keeps : Nat → σ → Prop} (handler : Handler σ ε α)
    (later : ∀ low high state, low ≤ high → keeps low state → keeps high state)
    (answers : ∀ cursor request state, asks cursor request → keeps cursor.start state →
      ∃ answer after, (handler.answer request).run.run state = (.ok answer, after) ∧
        request.Names answer ∧ keeps cursor.start after)
    (tells : dialogue.Tells asks results low) {state : σ} (kept : keeps low state) :
    (∃ value, (dialogue.run handler state).outcome = .ok value) ∨
      ∃ error, (dialogue.run handler state).outcome = .error (handler.ofError (.refused error)) ∧
        keeps error.position (dialogue.run handler state).state := by
  induction dialogue generalizing low state with
  | done cursor outcome =>
    cases outcome with
    | ok value => exact .inl ⟨value, rfl⟩
    | error error => exact .inr ⟨error, rfl, later _ _ _ tells kept⟩
  | ask cursor request resume step =>
    obtain ⟨reached, asked, rest⟩ := tells
    obtain ⟨answer, after, answered, named, keeps_after⟩ :=
      answers cursor request state asked (later _ _ _ reached kept)
    rw [Dialogue.run, answered]
    exact step answer (rest answer named) keeps_after

end Dialogue

/-! ### Steps -/

namespace Parser

variable {asks : Cursor → Request α → Prop} {whole : Lexing} {passed : List Located}
  {cursor : Cursor}

theorem tells_bind {parser : Parser α γ} {next : γ → Parser α β} {results : β → Cursor → Prop}
    {low : Nat}
    (tells : (parser cursor).Tells asks
      (fun value after => (next value after).Tells asks results after.start) low) :
    ((parser >>= next) cursor).Tells asks results low :=
  tells.andThen

theorem tells_pure {results : β → Cursor → Prop} {result : β} (kept : results result cursor) :
    ((pure result : Parser α β) cursor).Tells asks results cursor.start :=
  ⟨Nat.le_refl _, kept⟩

theorem tells_ask {request : Request α} {results : request.Answer → Cursor → Prop}
    (asked : asks cursor request) (answered : ∀ answer, request.Names answer →
      results answer cursor) : (ask request cursor).Tells asks results cursor.start :=
  ⟨Nat.le_refl _, asked, fun answer named => ⟨Nat.le_refl _, answered answer named⟩⟩

theorem tells_refuse {results : β → Cursor → Prop} (cause : Cause) :
    ((refuse ⟨cause, cursor.start⟩ : Parser α β) cursor).Tells asks results cursor.start :=
  Nat.le_refl cursor.start

theorem tells_unexpected {results : β → Cursor → Prop} (expected : Expected) :
    (unexpected expected cursor).Tells asks results cursor.start := by
  rw [unexpected, cursor_bind]
  cases cursor.token <;> exact tells_refuse _

/-- Advancing from a cursor that has the same readings before it as the one in the text. -/
theorem tells_next {left : Cursor} {results : Unit → Cursor → Prop}
    (past : cursor.Past whole passed) (same : left.next = cursor.next)
    (more : cursor.token ≠ .endOfInput)
    (goes : ∀ after, cursor.next = .ok after →
      after.Past whole (passed ++ [⟨cursor.start, cursor.token⟩]) → results () after) :
    (advance left).Tells asks results cursor.start := by
  cases next : left.next with
  | ok after =>
    have past_after := past.next (same ▸ next) more
    have further : cursor.start < after.start :=
      past_after.before _ (List.mem_append_right _ (List.mem_singleton_self _))
    rw [advance_of_ok next]
    exact ⟨Nat.le_of_lt further, goes after (same ▸ next) past_after⟩
  | error error =>
    obtain ⟨stuck, refuses⟩ := @advance_of_error α left error next
    rw [refuses]
    exact Nat.le_of_lt (past.next_error (same ▸ next) more)

theorem tells_advance {results : Unit → Cursor → Prop} (past : cursor.Past whole passed)
    (more : cursor.token ≠ .endOfInput)
    (goes : ∀ after, cursor.next = .ok after →
      after.Past whole (passed ++ [⟨cursor.start, cursor.token⟩]) → results () after) :
    (advance cursor).Tells asks results cursor.start :=
  tells_next past rfl more goes

theorem tells_consume {results : Unit → Cursor → Prop} (past : cursor.Past whole passed)
    (more : cursor.token ≠ .endOfInput)
    (goes : ∀ after, cursor.next = .ok after →
      after.Past whole (passed ++ [⟨cursor.start, cursor.token⟩]) → results () after) :
    (consume cursor).Tells asks results cursor.start := by
  have advances : (advance ({ cursor with token := .endOfInput } : Cursor)).Tells asks results
      cursor.start := tells_next past rfl more goes
  exact tells_bind ⟨Nat.le_refl _, advances⟩

theorem tells_expect {results : Unit → Cursor → Prop} {token : Token} {expected : Expected}
    (past : cursor.Past whole passed) (more : token ≠ .endOfInput)
    (goes : ∀ after, after.Past whole (passed ++ [⟨cursor.start, token⟩]) → results () after) :
    (expect token expected cursor).Tells asks results cursor.start := by
  rw [expect, cursor_bind]
  by_cases here : cursor.token = token
  · subst here
    rw [if_pos rfl]
    exact tells_advance past more fun after _ past_after => goes after past_after
  · rw [if_neg here]
    exact tells_unexpected expected

theorem tells_operator? {results : Option Operator → Cursor → Prop} (rule : Rule)
    (past : cursor.Past whole passed)
    (goes : ∀ operator after,
      after.Past whole (passed ++ [⟨cursor.start, .operator operator⟩]) →
        results (some operator) after)
    (stays : results none cursor) :
    (operator? rule cursor).Tells asks results cursor.start := by
  rw [operator?, cursor_bind]
  cases here : cursor.token with
  | operator operator =>
    by_cases member : operator ∈ rule.operators
    · simp only [if_pos member]
      refine tells_bind (tells_advance past (by simp [here]) fun after _ past_after => ?_)
      rw [here] at past_after
      exact tells_pure (goes operator after past_after)
    · simp only [if_neg member]
      exact tells_pure stays
  | _ => exact tells_pure stays

end Parser

end Formula
