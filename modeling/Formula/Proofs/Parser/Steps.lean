/-
**What the steps of the parser do.**

Every step looks at the token at the cursor and passes over it or leaves it: one statement for the
dialogue that it comes to, one for holding the step, when it goes on, and one for what it meets.
-/

import Formula.Proofs.Dialogue

namespace Formula

/-- The refusal of the token at the cursor. -/
def Cursor.refusal (cursor : Cursor) (expected : Expected) : ParseError :=
  match cursor.token with
  | .endOfInput => ⟨.unexpectedEnd expected, cursor.start⟩
  | found => ⟨.unexpectedToken found expected, cursor.start⟩

theorem Cursor.refusal_of_end {cursor : Cursor} (expected : Expected)
    (ended : cursor.token = .endOfInput) :
    cursor.refusal expected = ⟨.unexpectedEnd expected, cursor.start⟩ := by
  rw [refusal, ended]

theorem Cursor.refusal_of_token {cursor : Cursor} (expected : Expected)
    (more : cursor.token ≠ .endOfInput) :
    cursor.refusal expected = ⟨.unexpectedToken cursor.token expected, cursor.start⟩ := by
  unfold refusal
  split <;> trivial

namespace Parser

variable {σ ε α β : Type}

/-! ### Equations -/

theorem cursor_bind (next : Cursor → Parser α β) (cursor : Cursor) :
    (Parser.cursor >>= next) cursor = next cursor cursor :=
  rfl

theorem move_bind (change : Cursor → Cursor) (next : Unit → Parser α β) (cursor : Cursor) :
    (move change >>= next) cursor = next () (change cursor) :=
  rfl

theorem advance_of_ok {cursor after : Cursor} (next : cursor.next = .ok after) :
    (advance cursor : Dialogue α Unit) = .done after (.ok ()) := by
  obtain ⟨start, token, tape, found, rfl⟩ := Cursor.next_eq_ok next
  simp only [advance, found]

theorem advance_of_error {cursor : Cursor} {error : ParseError}
    (next : cursor.next = .error error) :
    ∃ left, (advance cursor : Dialogue α Unit) = .done left (.error error) := by
  obtain ⟨start, tape, found⟩ := Cursor.next_eq_error next
  exact ⟨_, by simp only [advance, found]; rfl⟩

theorem unexpected_eq (expected : Expected) (cursor : Cursor) :
    (unexpected expected cursor : Dialogue α β) =
      .done cursor (.error (cursor.refusal expected)) := by
  rw [unexpected, cursor_bind]
  unfold Cursor.refusal
  cases cursor.token <;> rfl

theorem ahead_bind (next : List Scanned → Parser α β) (cursor : Cursor) :
    (ahead >>= next) cursor = next (cursor.tape.last :: cursor.tape.items) cursor :=
  rfl

theorem operator?_of_operator (rule : Rule) {operator : Operator} {cursor : Cursor}
    (here : cursor.token = .operator operator) :
    (operator? rule cursor : Dialogue α _) =
      (if operator ∈ rule.operators then (do advance; pure (some operator) : Parser α _)
        else pure none) cursor := by
  obtain ⟨token, start, tape, depth⟩ := cursor
  cases here
  rfl

theorem operator?_of_other {rule : Rule} {cursor : Cursor}
    (other : ∀ operator ∈ rule.operators, cursor.token ≠ .operator operator) :
    (operator? rule cursor : Dialogue α _) = .done cursor (.ok none) := by
  obtain ⟨token, start, tape, depth⟩ := cursor
  cases token with
  | operator operator =>
    rw [operator?_of_operator rule rfl, if_neg fun member => other operator member rfl]
    rfl
  | _ => rfl

/-- Where an operator of a layer stands, it is passed over first. -/
theorem operator?_bind {rule : Rule} {operator : Operator} {cursor : Cursor}
    (member : operator ∈ rule.operators) (here : cursor.token = .operator operator)
    (next : Option Operator → Parser α β) :
    (operator? rule >>= next) cursor = (advance >>= fun _ => next (some operator)) cursor := by
  show Dialogue.andThen (operator? rule cursor) _ = _
  rw [operator?_of_operator rule here, if_pos member]
  exact Dialogue.andThen_assoc ..

/-! ### Holding -/

section Hold

variable (handler : Handler σ ε α) {cursor after : Cursor}

theorem hold_advance (next : cursor.next = .ok after) :
    (advance cursor).hold handler = pure ((), after) := by
  obtain ⟨start, token, tape, found, rfl⟩ := Cursor.next_eq_ok next
  simp only [advance, found, Dialogue.hold]

theorem hold_consume (next : cursor.next = .ok after) :
    (consume cursor).hold handler = pure ((), after) := by
  rw [consume, hold_bind, hold_move, pure_bind]
  exact hold_advance handler next

theorem hold_expect {token : Token} {expected : Expected} (here : cursor.token = token)
    (next : cursor.next = .ok after) :
    (expect token expected cursor).hold handler = pure ((), after) := by
  rw [expect, hold_bind, hold_cursor, pure_bind]
  simp only [here, if_true]
  exact hold_advance handler next

theorem hold_ahead :
    (ahead cursor).hold handler = pure (cursor.tape.last :: cursor.tape.items, cursor) :=
  rfl

theorem hold_operator? {rule : Rule} {operator : Operator} (member : operator ∈ rule.operators)
    (here : cursor.token = .operator operator) (next : cursor.next = .ok after) :
    (operator? rule cursor).hold handler = pure (some operator, after) := by
  rw [operator?, hold_bind, hold_cursor, pure_bind]
  simp only [here, member, if_true, hold_bind, hold_advance handler next, pure_bind, hold_pure]

theorem hold_operator?_none {rule : Rule}
    (other : ∀ operator ∈ rule.operators, cursor.token ≠ .operator operator) :
    (operator? rule cursor).hold handler = pure (none, cursor) := by
  rw [operator?, hold_bind, hold_cursor, pure_bind]
  cases here : cursor.token with
  | operator operator =>
    simp only [here, if_neg fun member => other operator member here, hold_pure]
  | _ => simp only [here, hold_pure]

end Hold

/-! ### Meeting -/

section Meets

variable {asks : Cursor → Request α → Prop} {refusals : ParseError → Cursor → Prop}
  {cursor : Cursor}

theorem meets_advance {results : Unit → Cursor → Prop}
    (passed : ∀ after, cursor.next = .ok after → results () after)
    (refused : ∀ error, cursor.next = .error error →
      ∀ left : Cursor, left.depth = cursor.depth → refusals error left) :
    (advance cursor).Meets asks results refusals := by
  cases next : cursor.next with
  | ok after =>
    obtain ⟨start, token, tape, found, rfl⟩ := Cursor.next_eq_ok next
    simp only [advance, found]
    exact passed _ next
  | error error =>
    obtain ⟨start, tape, found⟩ := Cursor.next_eq_error next
    simp only [advance, found]
    exact refused error next _ rfl

theorem meets_consume {results : Unit → Cursor → Prop}
    (passed : ∀ after, cursor.next = .ok after → results () after)
    (refused : ∀ error, cursor.next = .error error →
      ∀ left : Cursor, left.depth = cursor.depth → refusals error left) :
    (consume cursor).Meets asks results refusals := by
  rw [consume, meets_bind, meets_move]
  exact meets_advance passed refused

theorem meets_unexpected {results : β → Cursor → Prop} {expected : Expected}
    (refused : refusals (cursor.refusal expected) cursor) :
    (unexpected expected cursor).Meets asks results refusals := by
  rw [unexpected, meets_bind, meets_cursor]
  unfold Cursor.refusal at refused
  cases here : cursor.token <;> rw [here] at refused <;> exact refused

theorem meets_expect {results : Unit → Cursor → Prop} {token : Token} {expected : Expected}
    (passed : ∀ after, cursor.token = token → cursor.next = .ok after → results () after)
    (unreadable : ∀ error, cursor.token = token → cursor.next = .error error →
      ∀ left : Cursor, left.depth = cursor.depth → refusals error left)
    (refused : cursor.token ≠ token → refusals (cursor.refusal expected) cursor) :
    (expect token expected cursor).Meets asks results refusals := by
  rw [expect, meets_bind, meets_cursor]
  split
  · rename_i here
    exact meets_advance (fun after => passed after here) fun error => unreadable error here
  · rename_i other
    exact meets_unexpected (refused other)

theorem meets_operator? {results : Option Operator → Cursor → Prop} {rule : Rule}
    (passed : ∀ operator ∈ rule.operators, cursor.token = .operator operator →
      ∀ after, cursor.next = .ok after → results (some operator) after)
    (unreadable : ∀ operator ∈ rule.operators, cursor.token = .operator operator →
      ∀ error, cursor.next = .error error →
        ∀ left : Cursor, left.depth = cursor.depth → refusals error left)
    (other : (∀ operator ∈ rule.operators, cursor.token ≠ .operator operator) →
      results none cursor) :
    (operator? rule cursor).Meets asks results refusals := by
  rw [operator?, meets_bind, meets_cursor]
  cases here : cursor.token with
  | operator operator =>
    by_cases member : operator ∈ rule.operators
    · simp only [if_pos member, meets_bind]
      exact meets_advance (passed operator member here) (unreadable operator member here)
    · simp only [if_neg member]
      refine other fun operator' member' here' => member ?_
      cases here.symm.trans here'
      exact member'
  | _ => exact other fun operator _ here' => by simp [here] at here'

end Meets

end Parser

end Formula
