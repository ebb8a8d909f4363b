/-
**The earliest error is reported.**

A text that has no tree, and is not too deep, is refused for its first offending token, or else for
ending too early, or else for what is no token. So nothing behind the first offending token is ever
reported in its place.

* `Expression.ofText?_error_cases`: the three kinds of refusal.
-/

import Formula.Proofs.Expressions

namespace Formula

/-- Whether something fails with a given error can be computed, whatever else it may give. -/
instance decidableEqError {ε α : Type} [DecidableEq ε] (error : ε) :
    (result : Except ε α) → Decidable (result = .error error)
  | .error found => decidable_of_iff (found = error) (by simp [eq_comm])
  | .ok _ => isFalse (by simp)

/-- **A text without a tree is refused for one of three reasons, the earliest one.** -/
theorem Expression.ofText?_error_cases (text : String) (options : Options) (error : Error)
    (failed : ofText? text options = .error error)
    (shallow : ∀ limit position, error ≠ .refused ⟨.nestingTooDeep limit, position⟩) :
    let lexing := Lexing.ofText text options.comments
    ∃ refusal, error = .refused refusal ∧
      ((lexing.Offending refusal ∧ ¬ lexing.Unfinished text.utf8ByteSize refusal ∧
          ¬ lexing.Unreadable refusal) ∨
        (¬ lexing.Offending refusal ∧ lexing.Unfinished text.utf8ByteSize refusal ∧
          ¬ lexing.Unreadable refusal) ∨
        (¬ lexing.Offending refusal ∧ ¬ lexing.Unfinished text.utf8ByteSize refusal ∧
          lexing.Unreadable refusal)) := by
  rw [ofText?_eq] at failed
  rcases parse_cases (Builder.tree id).handler text options () with
    ⟨_, built, -⟩ | ⟨refusal, refused, why⟩ | ⟨request, _, state, produced, unanswered, -⟩
  · cases failed.symm.trans built
  · cases failed.symm.trans refused
    refine ⟨refusal, rfl, ?_⟩
    cases why with
    | tooDeep position => exact absurd rfl (shallow _ position)
    | offending offends =>
      exact .inl ⟨offends, fun unfinished => offends.not_viable unfinished.2.1,
        fun unreadable => offends.not_viable unreadable.2⟩
    | unfinished unfinished =>
      rw [← Lexing.ofText_ending unfinished.1]
      exact .inr (.inl ⟨fun offends => offends.not_viable unfinished.2.1, unfinished,
        unfinished.not_unreadable⟩)
    | unreadable unreadable =>
      exact .inr (.inr ⟨fun offends => offends.not_viable unreadable.2,
        fun unfinished => unfinished.not_unreadable unreadable, unreadable⟩)
  · obtain ⟨value, after, answered⟩ := (Builder.total_tree id).answers produced state
    rw [answered] at unanswered
    cases unanswered

/-- Of two operands in a row the second one offends. -/
theorem Expression.offending_second_operand :
    (Lexing.ofText "a b" true).Offending ⟨.unexpectedToken (.name "b") .endOfInput, 2⟩ := by
  have reaches_end : (Lexing.ofText "a b" true).ending.isOk = true := by decide +kernel
  obtain ⟨refusal, same, reasons⟩ := ofText?_error_cases "a b" {}
    (.refused ⟨.unexpectedToken (.name "b") .endOfInput, 2⟩) (by decide +kernel) (by simp)
  cases same
  rcases reasons with ⟨offends, -, -⟩ | ⟨-, ⟨-, -, -, expected, same⟩, -⟩ | ⟨-, -, ended, -⟩
  · exact offends
  · cases same
  · rw [ended] at reaches_end
    cases reaches_end

end Formula
