/-
**Why a text is refused, told by its tokens.**

The tokens of a text stop being a beginning of an expression at one token at most. If there is one,
the text is refused for it. Else the tokens are a beginning of an expression to the last, and the
text is refused because it ends there or because what follows is no token. The three exclude each
other.

* `Lexing.Refused`: the refusals of a text.
* `Lexing.OffendsAt.unique`: there is one first offending token at most.
-/

import Formula.Proofs.Grammar.Viable
import Formula.Proofs.Lexing

namespace Formula

theorem Phrase.Viable.take {phrase : Phrase} {tokens : List Token} (viable : phrase.Viable tokens)
    (count : Nat) : phrase.Viable (tokens.take count) := by
  rw [← List.take_append_drop count tokens] at viable
  exact viable.of_append

namespace Lexing

variable {lexing : Lexing} {error : ParseError}

/-- Up to an index the tokens are a beginning of an expression, and with the token there they are
none. -/
def OffendsAt (lexing : Lexing) (index : Nat) : Prop :=
  Phrase.expression.Viable (lexing.spelled.take index) ∧
    ¬ Phrase.expression.Viable (lexing.spelled.take (index + 1))

/-- What offends later on is begun by what does not offend. -/
theorem OffendsAt.not_lt {index other : Nat} (offends : lexing.OffendsAt index)
    (also : lexing.OffendsAt other) : ¬ index < other := by
  intro before
  have viable := also.1.take (index + 1)
  rw [List.take_take, Nat.min_eq_left before] at viable
  exact offends.2 viable

/-- **There is one first offending token at most.** -/
theorem OffendsAt.unique {index other : Nat} (offends : lexing.OffendsAt index)
    (also : lexing.OffendsAt other) : other = index :=
  Nat.le_antisymm (Nat.not_lt.mp (offends.not_lt also)) (Nat.not_lt.mp (also.not_lt offends))

/-- The error names the first offending token and the offset at which it begins. -/
def Offending (lexing : Lexing) (error : ParseError) : Prop :=
  ∃ index found expected, lexing.tokens[index]? = some found ∧ lexing.OffendsAt index ∧
    (∀ other, lexing.OffendsAt other → other = index) ∧
    error = ⟨.unexpectedToken found.token expected, found.start⟩

/-- The error names the end of the input, at the given offset, where an expression has begun and has
not ended. -/
def Unfinished (lexing : Lexing) (stop : Nat) (error : ParseError) : Prop :=
  lexing.ending = .ok stop ∧ Phrase.expression.Viable lexing.spelled ∧
    (∀ derivation : Derivation .expression, derivation.tokens ≠ lexing.spelled) ∧
    ∃ expected, error = ⟨.unexpectedEnd expected, stop⟩

/-- The error is what ends the tokens, where an expression has begun. -/
def Unreadable (lexing : Lexing) (error : ParseError) : Prop :=
  lexing.ending = .error error ∧ Phrase.expression.Viable lexing.spelled

/-- The refusals of a text, by its tokens. -/
inductive Refused (limit : Nat) (lexing : Lexing) : ParseError → Prop
  | tooDeep (position : Nat) : Refused limit lexing ⟨.nestingTooDeep limit, position⟩
  | offending {error : ParseError} (offends : lexing.Offending error) : Refused limit lexing error
  | unfinished {stop : Nat} {error : ParseError} (unfinished : lexing.Unfinished stop error) :
    Refused limit lexing error
  | unreadable {error : ParseError} (unreadable : lexing.Unreadable error) :
    Refused limit lexing error

theorem offending_of_split {before after : List Located} {found : Located} (expected : Expected)
    (split : lexing.tokens = before ++ found :: after)
    (viable : Phrase.expression.Viable (before.map Located.token))
    (stuck : ¬ Phrase.expression.Viable (before.map Located.token ++ [found.token])) :
    lexing.Offending ⟨.unexpectedToken found.token expected, found.start⟩ := by
  have offends : lexing.OffendsAt before.length := by
    have spelled_eq : lexing.spelled =
        (before.map Located.token ++ [found.token]) ++ after.map Located.token := by
      simp [spelled, split]
    refine ⟨?_, ?_⟩
    · rwa [spelled_eq, List.append_assoc, List.take_left' (List.length_map ..)]
    · rwa [spelled_eq, List.take_left' (by simp)]
  exact ⟨before.length, found, expected, by simp [split], offends, fun _ => offends.unique, rfl⟩

/-! ### Exclusion -/

theorem Offending.not_viable (offends : lexing.Offending error) :
    ¬ Phrase.expression.Viable lexing.spelled := by
  obtain ⟨index, found, expected, -, stuck, -⟩ := offends
  exact fun viable => stuck.2 (viable.take (index + 1))

theorem Unfinished.not_unreadable {stop : Nat} (unfinished : lexing.Unfinished stop error) :
    ¬ lexing.Unreadable error := by
  intro unreadable
  cases unfinished.1.symm.trans unreadable.1

end Lexing

end Formula
