/-
**Counting the levels.**

The depth of the cursor counts the levels that are open: it goes up where an expression is entered
and down where it is left, and nothing else changes it. A failure leaves it as it is.

Entering and leaving are given as two parsers here (`Parser.level`). All that is asked of them is
what they do within the limit: entering opens a level below the limit and refuses at it, and leaving
closes a level where there is one (`Parser.Counts`). At any other depth they may do what they like.
It makes no difference (`Parser.levels_agree`), since they never come to be made there.

* `Parser.Agree`: parsers that are the same at a depth, and keep to the depths from there on. It
  goes through `do`.
* `Parser.layers_agree`: the layers of an expression leave the depth to what is one level deeper.
* `Parser.levels_agree`: expressions with levels that are counted are those with room for them.
* `Parser.counts_of_lt`: a counter with a last value counts, if the limit is no more than that,
  whatever an overflow and an underflow would do.
-/

import Formula.Proofs.Parser.Consuming

namespace Formula

variable {α β γ : Type}

/-- Holds of a dialogue that asks and refuses at depths from one up to a limit only, and comes to
its results at the first of them. -/
def Dialogue.Keeps (depth limit : Nat) (dialogue : Dialogue α β) : Prop :=
  dialogue.Meets (fun cursor _ => depth ≤ cursor.depth ∧ cursor.depth ≤ limit)
    (fun _ cursor => cursor.depth = depth)
    (fun _ cursor => depth ≤ cursor.depth ∧ cursor.depth ≤ limit)

namespace Parser

/-! ### Parsers that agree at a depth -/

/-- Holds of parsers that are the same at a depth, and keep to the depths from there up to a
limit. -/
def Agree (depth limit : Nat) (first second : Parser α β) : Prop :=
  ∀ ⦃cursor : Cursor⦄, cursor.depth = depth →
    first cursor = second cursor ∧ (first cursor).Keeps depth limit

variable {depth limit : Nat}

theorem Agree.bind {parser parser' : Parser α γ} {next next' : γ → Parser α β}
    (first : Agree depth limit parser parser')
    (rest : ∀ value, Agree depth limit (next value) (next' value)) :
    Agree depth limit (parser >>= next) (parser' >>= next') := by
  intro cursor here
  obtain ⟨same, keeps⟩ := first here
  refine ⟨bind_same same keeps fun value after there => (rest value there).1, ?_⟩
  rw [Dialogue.Keeps, meets_bind]
  exact keeps.mono (fun value after there => (rest value there).2) fun _ _ refused => refused

theorem pure_agree (value : β) : Agree depth limit (pure value : Parser α β) (pure value) :=
  fun _ here => ⟨rfl, here⟩

theorem cursor_agree : Agree depth limit (Parser.cursor : Parser α Cursor) Parser.cursor :=
  fun _ here => ⟨rfl, here⟩

theorem ahead_agree : Agree depth limit (ahead : Parser α _) ahead :=
  fun _ here => ⟨rfl, here⟩

section Within

variable (within : depth ≤ limit)

include within

theorem ask_agree (request : Request α) :
    Agree depth limit (ask request) (ask request) := by
  rintro cursor rfl
  exact ⟨rfl, ⟨Nat.le_refl _, within⟩, fun _ => rfl⟩

theorem advance_agree : Agree depth limit (advance : Parser α Unit) advance := by
  rintro cursor rfl
  refine ⟨rfl, meets_advance (fun _ => Cursor.next_depth) fun _ _ left same => ?_⟩
  exact ⟨Nat.le_of_eq same.symm, same ▸ within⟩

theorem consume_agree : Agree depth limit (consume : Parser α Unit) consume := by
  rintro cursor rfl
  refine ⟨rfl, meets_consume (fun _ => Cursor.next_depth) fun _ _ left same => ?_⟩
  exact ⟨Nat.le_of_eq same.symm, same ▸ within⟩

theorem unexpected_agree (expected : Expected) :
    Agree depth limit (unexpected expected : Parser α β) (unexpected expected) := by
  rintro cursor rfl
  exact ⟨rfl, meets_unexpected ⟨Nat.le_refl _, within⟩⟩

theorem expect_agree (token : Token) (expected : Expected) :
    Agree depth limit (expect token expected : Parser α Unit) (expect token expected) := by
  refine cursor_agree.bind fun cursor => ?_
  split
  · exact advance_agree within
  · exact unexpected_agree within expected

theorem operator?_agree (rule : Rule) :
    Agree depth limit (operator? rule : Parser α _) (operator? rule) := by
  refine cursor_agree.bind fun cursor => ?_
  cases cursor.token with
  | operator operator =>
    by_cases member : operator ∈ rule.operators
    · simp only [if_pos member]
      exact (advance_agree within).bind fun _ => pure_agree (some operator)
    · simp only [if_neg member]
      exact pure_agree none
  | _ => exact pure_agree none

theorem names_agree (bound : List Scanned) (before : List String) :
    Agree depth limit (names bound before : Parser α _) (names bound before) := by
  induction bound generalizing before with
  | nil => exact pure_agree before.reverse
  | cons item bound step =>
    refine cursor_agree.bind fun cursor => ?_
    split
    · refine (advance_agree within).bind fun _ => cursor_agree.bind fun after => ?_
      cases after.token with
      | name letters => exact (consume_agree within).bind fun _ => step (letters :: before)
      | _ => exact unexpected_agree within .segment
    · exact pure_agree before.reverse

/-! ### Operands -/

section Inner

variable {expression expression' : Parser α α}
  (inner : Agree depth limit expression expression')

include inner

theorem moreArguments_agree (bound : List Scanned) (before : List α) :
    Agree depth limit (moreArguments expression bound before)
      (moreArguments expression' bound before) := by
  induction bound generalizing before with
  | nil => exact pure_agree before.reverse
  | cons item bound step =>
    refine cursor_agree.bind fun cursor => ?_
    by_cases comma : cursor.token = .comma
    · rw [if_pos comma, if_pos comma]
      exact (advance_agree within).bind fun _ => inner.bind fun argument =>
        step (argument :: before)
    · rw [if_neg comma, if_neg comma]
      exact pure_agree before.reverse

theorem arguments_agree : Agree depth limit (arguments expression) (arguments expression') := by
  have closed (values : List α) : Agree depth limit
      (do expect .closeParen .separatorOrClosing; pure values : Parser α (List α))
      (do expect .closeParen .separatorOrClosing; pure values) :=
    (expect_agree within .closeParen .separatorOrClosing).bind fun _ => pure_agree values
  refine cursor_agree.bind fun cursor => ?_
  by_cases close : cursor.token = .closeParen
  · rw [if_pos close, if_pos close]
    exact (pure_agree []).bind closed
  · rw [if_neg close, if_neg close]
    exact inner.bind fun first => ahead_agree.bind fun bound =>
      (moreArguments_agree within inner bound [first]).bind closed

theorem arguments?_agree :
    Agree depth limit (arguments? expression) (arguments? expression') := by
  refine cursor_agree.bind fun cursor => ?_
  by_cases opens : cursor.token = .openParen
  · rw [if_pos opens, if_pos opens]
    exact (advance_agree within).bind fun _ => (arguments_agree within inner).bind fun values =>
      pure_agree (some values)
  · rw [if_neg opens, if_neg opens]
    exact pure_agree none

theorem atom_agree : Agree depth limit (atom expression) (atom expression') := by
  have consumed := @consume_agree α _ _ within
  refine cursor_agree.bind fun cursor => ?_
  cases cursor.token with
  | number lexeme =>
    exact consumed.bind fun _ => (ask_agree within (.number lexeme)).bind fun value =>
      ask_agree within (.atom (.literal value))
  | text content =>
    exact consumed.bind fun _ => (ask_agree within (.text content)).bind fun value =>
      ask_agree within (.atom (.literal value))
  | name first =>
    exact consumed.bind fun _ => ahead_agree.bind fun bound =>
      (names_agree within bound [first]).bind fun segments =>
        (ask_agree within (.reference segments)).bind fun target =>
          (arguments?_agree within inner).bind fun arguments =>
            ask_agree within (.atom (.reference target arguments))
  | openParen =>
    exact consumed.bind fun _ => inner.bind fun value =>
      (expect_agree within .closeParen .closing).bind fun _ =>
        ask_agree within (.atom (.group value))
  | _ => exact unexpected_agree within .expression

theorem chain_agree (rule : Rule) (bound : List Scanned) (before : List (String × α)) :
    Agree depth limit (chain rule expression bound before)
      (chain rule expression' bound before) := by
  induction bound generalizing before with
  | nil => exact pure_agree before.reverse
  | cons item bound step =>
    refine (operator?_agree within rule).bind fun found => ?_
    cases found with
    | some operator => exact inner.bind fun value => step ((operator.symbol, value) :: before)
    | none => exact pure_agree before.reverse

end Inner

/-- The layers of an expression leave the depth to what is one level deeper. -/
theorem layers_agree {deeper deeper' : List Rule → Parser α α}
    (inner : ∀ rules, Agree depth limit (deeper rules) (deeper' rules)) (rules : List Rule) :
    Agree depth limit (layers deeper rules) (layers deeper' rules) := by
  induction rules with
  | nil => exact atom_agree within (inner Rule.precedence)
  | cons rule tighter step =>
    unfold layers
    cases rule.kind with
    | binary =>
      exact step.bind fun first => ahead_agree.bind fun bound =>
        (chain_agree within step rule bound []).bind fun rest =>
          ask_agree within (.reduce rule (.binary first rest))
    | unary =>
      refine (operator?_agree within rule).bind fun found => ?_
      cases found with
      | some operator =>
        exact (inner (rule :: tighter)).bind fun operand =>
          ask_agree within (.reduce rule (.unary operator.symbol operand))
      | none =>
        exact step.bind fun operand => ask_agree within (.reduce rule (.passthrough operand))

end Within

/-! ### Levels -/

/-- Reads an expression of the given layers within a level of its own, told how the level is entered
and left. -/
def level (enter leave : Parser α Unit) (deeper : List Rule → Parser α α) (rules : List Rule) :
    Parser α α := do
  enter
  let value ← layers deeper rules
  leave
  return value

/-- Reads an expression with so many levels, each within the one before; what is deeper than all of
them is read by `bottom`. -/
def levels (enter leave : Parser α Unit) (bottom : List Rule → Parser α α) :
    Nat → List Rule → Parser α α
  | 0 => bottom
  | count + 1 => level enter leave (levels enter leave bottom count)

/-- Holds of a way to enter and to leave a level that counts the levels up to a limit. At depths
above the limit nothing is said of it, and at depth zero nothing of how to leave. -/
structure Counts (limit : Nat) (enter leave : Parser α Unit) : Prop where
  opens : ∀ cursor : Cursor, cursor.depth < limit →
    enter cursor = .done { cursor with depth := cursor.depth + 1 } (.ok ())
  full : ∀ cursor : Cursor, cursor.depth = limit →
    enter cursor = .done cursor (.error ⟨.nestingTooDeep limit, cursor.start⟩)
  closes : ∀ cursor : Cursor, 0 < cursor.depth → cursor.depth ≤ limit →
    leave cursor = .done { cursor with depth := cursor.depth - 1 } (.ok ())

/-- Enters a level as a counter with so many values does, which refuses at the limit and else adds
one: `overflow` is what happens where the sum is no value of the counter. -/
def countUp (size limit : Nat) (overflow : Parser α Unit) : Parser α Unit := do
  let cursor ← cursor
  if limit ≤ cursor.depth then refuse ⟨.nestingTooDeep limit, cursor.start⟩
  else if cursor.depth + 1 < size then
    move fun cursor => { cursor with depth := cursor.depth + 1 }
  else overflow

/-- Leaves a level as a counter does, which takes one away: `underflow` is what happens where there
is none to take. -/
def countDown (underflow : Parser α Unit) : Parser α Unit := do
  if 0 < (← cursor).depth then move fun cursor => { cursor with depth := cursor.depth - 1 }
  else underflow

/-- A counter that has the limit among its values counts the levels, whatever would happen beyond
its values. -/
theorem counts_of_lt {size : Nat} (fits : limit < size) (overflow underflow : Parser α Unit) :
    Counts limit (countUp size limit overflow) (countDown underflow) where
  opens cursor below := by
    rw [countUp, cursor_bind, if_neg (Nat.not_le_of_lt below),
      if_pos (Nat.lt_of_le_of_lt below fits)]
    rfl
  full cursor here := by
    rw [countUp, cursor_bind, if_pos (Nat.le_of_eq here.symm)]
    rfl
  closes cursor some_level _ := by
    rw [countDown, cursor_bind, if_pos some_level]
    rfl

section Counts

variable {enter leave : Parser α Unit} (counts : Counts limit enter leave)

include counts

/-- At the limit no level is opened. -/
theorem level_of_full {cursor : Cursor} (full : cursor.depth = limit)
    (deeper : List Rule → Parser α α) (rules : List Rule) :
    level enter leave deeper rules cursor =
      .done cursor (.error ⟨.nestingTooDeep limit, cursor.start⟩) := by
  show Dialogue.andThen (enter cursor) _ = _
  rw [counts.full cursor full]
  rfl

/-- Below the limit a level is opened for the layers. -/
theorem level_of_lt {cursor : Cursor} (below : cursor.depth < limit)
    (deeper : List Rule → Parser α α) (rules : List Rule) :
    level enter leave deeper rules cursor =
      (do
        let value ← layers deeper rules
        leave
        return value : Parser α α) { cursor with depth := cursor.depth + 1 } := by
  show Dialogue.andThen (enter cursor) _ = _
  rw [counts.opens cursor below]
  rfl

/-- A level that is open is closed again. -/
theorem leave_bind {cursor : Cursor} (open_level : 0 < cursor.depth) (within : cursor.depth ≤ limit)
    (value : β) :
    (do leave; return value : Parser α β) cursor =
      .done { cursor with depth := cursor.depth - 1 } (.ok value) := by
  show Dialogue.andThen (leave cursor) _ = _
  rw [counts.closes cursor open_level within]
  rfl

/-- Expressions with levels that are counted are those with room for the levels that are left. -/
theorem levels_agree (bottom : List Rule → Parser α α) {count room : Nat} (more : room < count)
    (left : depth + room = limit) (rules : List Rule) :
    Agree depth limit (levels enter leave bottom count rules) (nested limit room rules) := by
  induction room generalizing depth count rules with
  | zero =>
    obtain ⟨count, rfl⟩ := Nat.exists_eq_succ_of_ne_zero (Nat.ne_zero_of_lt more)
    rintro cursor rfl
    rw [levels, level_of_full counts left]
    exact ⟨rfl, Nat.le_refl _, Nat.le_of_eq left⟩
  | succ room deeper =>
    obtain ⟨count, rfl⟩ := Nat.exists_eq_succ_of_ne_zero (Nat.ne_zero_of_lt more)
    rintro cursor rfl
    -- Within the level, which is one deeper, the rest of the levels agree already.
    have inside := layers_agree (show cursor.depth + 1 ≤ limit by omega)
      (deeper (Nat.lt_of_succ_lt_succ more) (by omega)) rules
    obtain ⟨same, keeps⟩ := @inside { cursor with depth := cursor.depth + 1 } rfl
    have closes (value : α) (after : Cursor) (there : after.depth = cursor.depth + 1) :
        (do leave; return value : Parser α α) after =
          .done { after with depth := after.depth - 1 } (.ok value) :=
      leave_bind counts (by omega) (by omega) value
    rw [levels, level_of_lt counts (by omega)]
    refine ⟨bind_same same keeps closes, ?_⟩
    rw [Dialogue.Keeps, meets_bind]
    refine keeps.imp (fun _ _ asked => ⟨by omega, asked.2⟩) (fun value after there => ?_)
      fun _ _ refused => ⟨by omega, refused.2⟩
    rw [closes value after there]
    exact Nat.sub_eq_of_eq_add there

end Counts

end Parser

end Formula
