/-
**Passing over tokens.**

A parser moves its cursor by passing over tokens (`Cursor.Passes`). Along a tape as a text gives it
(`Cursor.Placed`) the end of the input is met once, with nothing after it, and every other token
that is passed over leaves fewer readings (`Cursor.Placed.remaining_lt`): they bound the loops of
the parser.
-/

import Formula.Parser

namespace Formula

/-- Holds of the tapes that a text gives: the last reading, and no other, is repeated for ever. -/
structure Tape.Ends (tape : Tape) : Prop where
  items : ∀ item ∈ tape.items, item.isLast = false
  last : tape.last.isLast = true

/-- The next reading of a tape is its first item, or at the end the last reading again. -/
theorem Tape.next_cases {tape after : Tape} {item : Scanned} (found : tape.next = (item, after)) :
    (∃ items, tape.items = item :: items ∧ after = ⟨items, tape.last⟩) ∨
      (tape.items = [] ∧ tape.last = item ∧ after = tape) := by
  obtain ⟨items, last⟩ := tape
  cases items with
  | nil =>
    cases found
    exact .inr ⟨rfl, rfl, rfl⟩
  | cons first items =>
    cases found
    exact .inl ⟨items, rfl, rfl⟩

namespace Cursor

/-- The cursor at the next token, unless it cannot be read. -/
def next (cursor : Cursor) : Except ParseError Cursor :=
  match cursor.tape.next with
  | (⟨start, .ok token⟩, tape) => .ok { cursor with token, start, tape }
  | (⟨_, .error error⟩, _) => .error error

/-- Passing over the tokens leads from one cursor to another. -/
def Passes (cursor : Cursor) : List Token → Cursor → Prop
  | [], last => cursor = last
  | token :: tokens, last =>
    cursor.token = token ∧ ∃ after, cursor.next = .ok after ∧ after.Passes tokens last

theorem passes_nil (cursor : Cursor) : cursor.Passes [] cursor :=
  rfl

theorem passes_append {cursor last : Cursor} {tokens more : List Token} :
    cursor.Passes (tokens ++ more) last ↔
      ∃ middle, cursor.Passes tokens middle ∧ middle.Passes more last := by
  induction tokens generalizing cursor with
  | nil => simp [Passes]
  | cons token tokens step =>
    simp only [List.cons_append, Passes, step]
    grind

theorem passes_singleton {cursor last : Cursor} {token : Token} :
    cursor.Passes [token] last ↔ cursor.token = token ∧ cursor.next = .ok last := by
  simp [Passes]

theorem Passes.trans {cursor middle last : Cursor} {tokens more : List Token}
    (first : cursor.Passes tokens middle) (second : middle.Passes more last) :
    cursor.Passes (tokens ++ more) last :=
  passes_append.mpr ⟨middle, first, second⟩

theorem Passes.head {cursor last : Cursor} {tokens : List Token}
    (passes : cursor.Passes tokens last) : cursor.token = tokens.headD last.token := by
  cases tokens with
  | nil => exact congrArg Cursor.token passes
  | cons token tokens => exact passes.1

theorem next_eq_ok {cursor after : Cursor} (next : cursor.next = .ok after) :
    ∃ start token tape, cursor.tape.next = (⟨start, .ok token⟩, tape) ∧
      after = { cursor with token, start, tape } := by
  unfold Cursor.next at next
  split at next
  · rename_i found
    cases next
    exact ⟨_, _, _, found, rfl⟩
  · cases next

theorem next_eq_error {cursor : Cursor} {error : ParseError} (next : cursor.next = .error error) :
    ∃ start tape, cursor.tape.next = (⟨start, .error error⟩, tape) := by
  unfold Cursor.next at next
  split at next
  · cases next
  · rename_i found
    cases next
    exact ⟨_, _, found⟩

theorem next_depth {cursor after : Cursor} (next : cursor.next = .ok after) :
    after.depth = cursor.depth := by
  obtain ⟨start, token, tape, -, rfl⟩ := next_eq_ok next
  rfl

/-- The depth has no part in passing over a token. -/
theorem next_setDepth {cursor after : Cursor} (next : cursor.next = .ok after) (depth : Nat) :
    ({ cursor with depth } : Cursor).next = .ok { after with depth } := by
  obtain ⟨start, token, tape, found, rfl⟩ := next_eq_ok next
  simp only [Cursor.next, found]

theorem next_setDepth_error {cursor : Cursor} {error : ParseError}
    (next : cursor.next = .error error) (depth : Nat) :
    ({ cursor with depth } : Cursor).next = .error error := by
  obtain ⟨start, tape, found⟩ := next_eq_error next
  simp only [Cursor.next, found]

theorem Passes.depth {cursor last : Cursor} {tokens : List Token}
    (passes : cursor.Passes tokens last) : last.depth = cursor.depth := by
  induction tokens generalizing cursor with
  | nil => exact congrArg Cursor.depth passes.symm
  | cons token tokens step =>
    obtain ⟨-, after, next, rest⟩ := passes
    exact (step rest).trans (next_depth next)

theorem Passes.setDepth {cursor last : Cursor} {tokens : List Token}
    (passes : cursor.Passes tokens last) (depth : Nat) :
    ({ cursor with depth } : Cursor).Passes tokens { last with depth } := by
  induction tokens generalizing cursor with
  | nil => exact congrArg (fun cursor : Cursor => { cursor with depth }) passes
  | cons token tokens step =>
    obtain ⟨here, after, next, rest⟩ := passes
    exact ⟨here, _, next_setDepth next depth, step rest⟩

/-- The readings from the cursor on, the end of the input apart. -/
def remaining (cursor : Cursor) : Nat :=
  if cursor.token = .endOfInput then 0 else cursor.tape.items.length + 1

theorem remaining_le (cursor : Cursor) :
    cursor.remaining ≤ (cursor.tape.last :: cursor.tape.items).length := by
  unfold remaining
  split
  · exact Nat.zero_le _
  · exact Nat.le_refl _

theorem remaining_eq_zero {cursor : Cursor} :
    cursor.remaining = 0 ↔ cursor.token = .endOfInput := by
  unfold remaining
  split <;> simp [*]

/-- Holds of the cursors that a text gives: the end of the input is met at the end of the tape. -/
structure Placed (cursor : Cursor) : Prop where
  ends : cursor.tape.Ends
  atEnd : cursor.token = .endOfInput →
    cursor.tape.items = [] ∧ cursor.tape.last.outcome = .ok .endOfInput

theorem Placed.setDepth {cursor : Cursor} (placed : cursor.Placed) (depth : Nat) :
    ({ cursor with depth } : Cursor).Placed :=
  ⟨placed.ends, placed.atEnd⟩

/-- What is read next along a tape that a text gives: the next item, or the last reading again. -/
theorem Placed.next_cases {cursor after : Cursor} (placed : cursor.Placed)
    (next : cursor.next = .ok after) :
    (∃ start items, after.token ≠ .endOfInput ∧
        cursor.tape.items = ⟨start, .ok after.token⟩ :: items ∧
        after.tape = ⟨items, cursor.tape.last⟩) ∨
      (after.token = .endOfInput ∧ cursor.tape.items = [] ∧ after.tape = cursor.tape ∧
        cursor.tape.last.outcome = .ok .endOfInput) := by
  obtain ⟨start, token, tape, found, rfl⟩ := next_eq_ok next
  rcases Tape.next_cases found with ⟨items, ahead, rfl⟩ | ⟨nothing, last, rfl⟩
  · have not_last := placed.ends.items ⟨start, .ok token⟩ (ahead ▸ List.mem_cons_self)
    refine .inl ⟨start, items, ?_, ahead, rfl⟩
    rintro rfl
    cases not_last
  · have is_last := placed.ends.last
    rw [last] at is_last
    have ended : token = .endOfInput := by
      cases token <;> first | rfl | cases is_last
    refine .inr ⟨ended, nothing, rfl, ?_⟩
    rw [last, ended]

theorem Placed.next {cursor after : Cursor} (placed : cursor.Placed)
    (next : cursor.next = .ok after) : after.Placed := by
  rcases placed.next_cases next with ⟨start, items, more, found, tape⟩ | ⟨ended, found, tape, last⟩
  · refine ⟨?_, fun ended => absurd ended more⟩
    rw [tape]
    exact ⟨fun item inside => placed.ends.items item (found ▸ List.mem_cons_of_mem _ inside),
      placed.ends.last⟩
  · exact ⟨tape ▸ placed.ends, fun _ => tape ▸ ⟨found, last⟩⟩

/-- Passing over a token other than the end of the input leaves fewer readings. -/
theorem Placed.remaining_lt {cursor after : Cursor} (placed : cursor.Placed)
    (next : cursor.next = .ok after) (more : cursor.token ≠ .endOfInput) :
    after.remaining < cursor.remaining := by
  rw [remaining.eq_def cursor, if_neg more]
  rcases placed.next_cases next with ⟨start, items, -, found, tape⟩ | ⟨ended, -⟩
  · have := after.remaining_le
    rw [tape] at this
    rw [found, List.length_cons]
    exact Nat.lt_succ_of_le this
  · rw [remaining_eq_zero.mpr ended]
    exact Nat.succ_pos _

theorem Placed.passes {cursor last : Cursor} {tokens : List Token} (placed : cursor.Placed)
    (passes : cursor.Passes tokens last) : last.Placed := by
  induction tokens generalizing cursor with
  | nil => exact passes ▸ placed
  | cons token tokens step =>
    obtain ⟨-, after, next, rest⟩ := passes
    exact step (placed.next next) rest

theorem Placed.remaining_le_of_passes {cursor last : Cursor} {tokens : List Token}
    (placed : cursor.Placed) (passes : cursor.Passes tokens last) :
    last.remaining ≤ cursor.remaining := by
  induction tokens generalizing cursor with
  | nil => exact Nat.le_of_eq (congrArg remaining (Eq.symm passes))
  | cons token tokens step =>
    obtain ⟨-, after, next, rest⟩ := passes
    refine Nat.le_trans (step (placed.next next) rest) ?_
    by_cases ended : cursor.token = .endOfInput
    · rcases placed.next_cases next with ⟨_, _, _, found, _⟩ | ⟨ended', _⟩
      · rw [(placed.atEnd ended).1] at found
        cases found
      · rw [remaining_eq_zero.mpr ended']
        exact Nat.zero_le _
    · exact Nat.le_of_lt (placed.remaining_lt next ended)

/-! ### Tokens to come -/

/-- Every token from the cursor on is a good one. -/
structure All (good : Token → Prop) (cursor : Cursor) : Prop where
  here : good cursor.token
  items : ∀ item ∈ cursor.tape.items, ∀ token, item.outcome = .ok token → good token
  last : ∀ token, cursor.tape.last.outcome = .ok token → good token

theorem All.setDepth {good : Token → Prop} {cursor : Cursor} (all : cursor.All good)
    (depth : Nat) : ({ cursor with depth } : Cursor).All good :=
  ⟨all.here, all.items, all.last⟩

theorem All.next {good : Token → Prop} {cursor after : Cursor} (all : cursor.All good)
    (next : cursor.next = .ok after) : after.All good := by
  obtain ⟨start, token, tape, found, rfl⟩ := next_eq_ok next
  rcases Tape.next_cases found with ⟨items, ahead, rfl⟩ | ⟨-, last, rfl⟩
  · have inside : ⟨start, .ok token⟩ ∈ cursor.tape.items := ahead ▸ List.mem_cons_self
    have after_items : ∀ item ∈ items, item ∈ cursor.tape.items := fun item later =>
      ahead ▸ List.mem_cons_of_mem _ later
    exact ⟨all.items _ inside token rfl, fun item later => all.items item (after_items item later),
      all.last⟩
  · exact ⟨all.last token (by rw [last]), all.items, all.last⟩

theorem All.passes {good : Token → Prop} {cursor last : Cursor} {tokens : List Token}
    (all : cursor.All good) (passes : cursor.Passes tokens last) : last.All good := by
  induction tokens generalizing cursor with
  | nil => exact passes ▸ all
  | cons token tokens step =>
    obtain ⟨-, after, next, rest⟩ := passes
    exact step (all.next next) rest

/-- The tokens that are passed over are good ones. -/
theorem All.passed {good : Token → Prop} {cursor last : Cursor} {tokens : List Token}
    (all : cursor.All good) (passes : cursor.Passes tokens last) :
    ∀ token ∈ tokens, good token := by
  induction tokens generalizing cursor with
  | nil => exact List.forall_mem_nil _
  | cons token tokens step =>
    obtain ⟨here, after, next, rest⟩ := passes
    rintro other (_ | ⟨_, inside⟩)
    · exact here ▸ all.here
    · exact step (all.next next) rest other inside

end Cursor

end Formula
