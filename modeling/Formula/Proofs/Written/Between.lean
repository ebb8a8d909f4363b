/-
**Between the tokens of a text.**

A text can be cut behind each of its tokens. What is before the cut has its tokens before whatever
is clear of them, so a mark that is clear may be put in there; what is behind it has its tokens
wherever it stands.

* `Clear.endsAt_append`: a token that ends ends as well if the text goes on with what is clear.
* `Spelled.cut`: a text is cut.
* `Spelled.parenthesised`: parentheses are put around some of its tokens.
-/

import Formula.Proofs.Scanner.Progress
import Formula.Proofs.Written.Spelling

namespace Formula

open Scanner

variable {comments : Bool}

/-! ### What comes after -/

/-- Trivia before a spelling are trivia before anything: no comment goes on up to it. -/
theorem Trivia.before_any {trivia spelling rest : List Char} {token : Token}
    (between : Trivia comments (spelling ++ rest) trivia) (spells : token.SpelledBy spelling)
    (other : List Char) : Trivia comments other trivia := by
  induction between with
  | nothing => exact .nothing
  | blank isBlank more step => exact .blank isBlank step
  | @comment body run passed inLine ends more step =>
    refine .comment passed inLine ?_ step
    cases run with
    | nil =>
      obtain ⟨first, after, rfl, no_blank, -⟩ := spells.head
      cases ends first rfl
      cases no_blank
    | cons next run =>
      rintro _ ⟨⟩
      exact ends next rfl

/-- Trivia are clear of what is before them. -/
theorem Trivia.clear {trivia rest after : List Char} (between : Trivia comments rest trivia)
    (clear : Clear after) : Clear (trivia ++ after) := by
  cases between with
  | nothing => exact clear
  | blank isBlank more => exact .of_isBlank (isBlank_iff.mpr isBlank)
  | comment passed inLine ends more =>
    rintro next ⟨⟩
    decide

/-- A number that ends before a text ends as well if the text goes on with what is clear. -/
theorem Clear.number_endsAt {lexeme : String} {spelling front rest after : List Char}
    (clear : Clear after) (numeral : IsNumeral spelling) (some_front : front ≠ [])
    (ends : (Token.number lexeme).EndsAt spelling (front ++ rest)) :
    (Token.number lexeme).EndsAt spelling (front ++ after) := by
  obtain ⟨next, front, rfl⟩ := List.exists_cons_of_ne_nil some_front
  obtain ⟨no_letter, longest⟩ := ends
  have no_digit : next.isDigit = false := eq_false_of_ne_true fun is_digit =>
    longest [next] (List.cons_ne_nil _ _) ⟨front ++ rest, rfl⟩ (numeral.concat is_digit)
  refine ⟨no_letter, ?_⟩
  rintro more some_more ⟨tail, same⟩ longer
  obtain ⟨first, more, rfl⟩ := List.exists_cons_of_ne_nil some_more
  rw [List.cons_append, List.cons_append, List.cons.injEq] at same
  obtain ⟨rfl, same⟩ := same
  -- It could go on with a point and a digit only, and the digit is no part of what is clear.
  obtain ⟨rfl, digits, place, head, is_digit⟩ := numeral.point no_digit (no_letter _ rfl) longer
  obtain ⟨more, rfl⟩ := List.head?_eq_some_iff.mp head
  rw [List.cons_append] at same
  cases front with
  | nil =>
    have no_part := (clear place (by rw [← List.nil_append after, ← same]; rfl)).1
    exact (no_part (isNamePart_iff.mp (isNamePart_of_isDigit is_digit))).elim
  | cons second front =>
    rw [List.cons_append, List.cons.injEq] at same
    obtain ⟨rfl, -⟩ := same
    refine longest ['.', place] (List.cons_ne_nil _ _) ⟨front ++ rest, rfl⟩ (isNumeral_iff.mpr ?_)
    exact ⟨spelling, ['.', place], [], by simp, digits,
      .inr ⟨[place], ⟨List.cons_ne_nil _ _, by simpa using is_digit⟩, rfl⟩, .inl rfl⟩

/-- A token that ends before a text ends as well if the text goes on with what is clear. -/
theorem Clear.endsAt_append {token : Token} {spelling front rest after : List Char}
    (clear : Clear after) (spells : token.SpelledBy spelling)
    (ends : token.EndsAt spelling (front ++ rest)) : token.EndsAt spelling (front ++ after) := by
  cases front with
  | nil => exact clear.endsAt spells
  | cons next front =>
    cases token with
    | number lexeme => exact clear.number_endsAt spells.1 (List.cons_ne_nil _ _) ends
    | operator which => cases which <;> exact ends
    | _ => exact ends

/-! ### Tokens wherever a text stands -/

/-- Holds of a text that has these tokens, wherever it stands. -/
def HasTokens (comments : Bool) (text : List Char) (tokens : List Token) : Prop :=
  ∀ offset, ∃ located : List Located, located.map Located.token = tokens ∧
    Spelled comments offset text located

/-- Holds of a text that has these tokens first, before whatever is clear of it. -/
def HasFirst (comments : Bool) (text : List Char) (tokens : List Token) : Prop :=
  ∀ rest others, Clear rest → HasTokens comments rest others →
    HasTokens comments (text ++ rest) (tokens ++ others)

namespace HasTokens

variable {rest : List Char} {tokens : List Token}

theorem cons {trivia spelling : List Char} {token : Token}
    (between : Trivia comments (spelling ++ rest) trivia) (spells : token.SpelledBy spelling)
    (ends : token.EndsAt spelling rest) (more : HasTokens comments rest tokens) :
    HasTokens comments (trivia ++ (spelling ++ rest)) (token :: tokens) := by
  intro offset
  obtain ⟨located, rfl, spelled⟩ := more (offset + byteLength trivia + byteLength spelling)
  exact ⟨_, rfl, .token between spells ends spelled⟩

/-- A text that has tokens spells them. -/
theorem lexing {text : String} (has : HasTokens comments text.toList tokens) :
    (Lexing.ofText text comments).Spells tokens := by
  obtain ⟨located, rfl, spelled⟩ := has 0
  exact Lexing.ofText_of_spelled spelled

end HasTokens

/-- What is spelled out somewhere has its tokens everywhere. -/
theorem Spelled.hasTokens {offset : Nat} {text : List Char} {located : List Located}
    (spelled : Spelled comments offset text located) :
    HasTokens comments text (located.map Located.token) := by
  induction spelled with
  | done between => exact fun offset => ⟨[], rfl, .done between⟩
  | token between spells ends more step => exact .cons between spells ends step

/-! ### Cutting -/

/-- After one reading more the scanner is where it is after as many, once it has made the first. -/
theorem Scanner.after_succ (scanner : Scanner) (count : Nat) :
    scanner.after (count + 1) = scanner.next.2.after count := by
  induction count with
  | zero => rfl
  | succ count step => rw [after, step, after]

theorem Scanner.after_add (scanner : Scanner) (count more : Nat) :
    scanner.after (count + more) = (scanner.after count).after more := by
  induction more with
  | zero => rfl
  | succ more step => rw [← Nat.add_assoc, after, step, after]

/-- A text is cut behind some of its tokens: what is before the cut has these before whatever is
clear of it, and behind the cut are the others. The scanner is at the cut when it has read them. -/
theorem Spelled.cut {first last : List Located} {offset : Nat} {text : List Char}
    (spelled : Spelled comments offset text (first ++ last)) :
    ∃ front back, text = front ++ back ∧ HasFirst comments front (first.map Located.token) ∧
      Spelled comments (offset + byteLength front) back last ∧
      (⟨⟨offset, text⟩, comments⟩ : Scanner).after first.length =
        ⟨⟨offset + byteLength front, back⟩, comments⟩ := by
  induction first generalizing offset text with
  | nil => exact ⟨[], text, rfl, fun _ _ _ more => more, spelled, rfl⟩
  | cons token first step =>
    cases spelled with
    | @token _ trivia spelling rest token _ between spells ends more =>
      obtain ⟨front, back, rfl, has, behind, stands⟩ := step more
      have length : byteLength (trivia ++ (spelling ++ front)) =
          byteLength trivia + byteLength spelling + byteLength front := by
        rw [byteLength_append, byteLength_append, Nat.add_assoc]
      refine ⟨trivia ++ (spelling ++ front), back, by simp, ?_, ?_, ?_⟩
      · intro after others clear after_has
        have whole := HasTokens.cons (between.before_any spells _) spells
          (clear.endsAt_append spells ends) (has after others clear after_has)
        simpa using whole
      · rw [length, ← Nat.add_assoc, ← Nat.add_assoc]
        exact behind
      · rw [List.length_cons, after_succ, next_of_spelledBy offset between spells ends, stands,
          length, ← Nat.add_assoc, ← Nat.add_assoc]

/-- Parentheses are put directly before one token and directly behind another. -/
theorem Spelled.parenthesised {first inside last : List Located} {token : Located} {offset : Nat}
    {text : List Char}
    (spelled : Spelled comments offset text (first ++ (token :: inside ++ last))) :
    let scanner : Scanner := ⟨⟨offset, text⟩, comments⟩
    ∃ front middle back, text = front ++ (middle ++ back) ∧
      (scanner.reading first.length).start = offset + byteLength front ∧
      (scanner.after (first.length + (token :: inside).length)).spot.offset =
        offset + byteLength (front ++ middle) ∧
      HasTokens comments (front ++ '(' :: (middle ++ ')' :: back))
        (first.map Located.token ++ .openParen ::
          ((token :: inside).map Located.token ++ .closeParen :: last.map Located.token)) := by
  intro scanner
  obtain ⟨front, back, rfl, has_first, behind, stands⟩ := spelled.cut
  cases behind with
  | @token _ trivia spelling rest token _ between spells ends more =>
    -- The second cut begins behind the trivia, where the first of the tokens is read all the same.
    have bare : Spelled comments (offset + byteLength front + byteLength trivia) (spelling ++ rest)
        (⟨offset + byteLength front + byteLength trivia, token⟩ :: inside ++ last) :=
      .token .nothing spells ends more
    obtain ⟨middle, back, same, has_middle, after, stands'⟩ :=
      @Spelled.cut comments (_ :: inside) last _ _ bare
    have close : HasTokens comments (')' :: back) (.closeParen :: last.map Located.token) :=
      @HasTokens.cons _ _ _ [] [')'] .closeParen .nothing rfl trivial after.hasTokens
    have clear_close : Clear (')' :: back) := by
      rintro next ⟨⟩
      decide
    have opened := @HasTokens.cons _ _ _ trivia ['('] .openParen (between.before_any spells _) rfl
      trivial (has_middle _ _ clear_close close)
    have clear_open : Clear (['('] ++ (middle ++ ')' :: back)) := by
      rintro next ⟨⟩
      decide
    have whole := has_first _ _ (between.clear clear_open) opened
    have length : offset + byteLength (front ++ trivia) =
        offset + byteLength front + byteLength trivia := by
      rw [byteLength_append, Nat.add_assoc]
    refine ⟨front ++ trivia, middle, back, ?_, ?_, ?_, ?_⟩
    · rw [← same, List.append_assoc]
    · rw [reading, stands, next_of_spelledBy _ between spells ends, length]
    · have read : (⟨⟨offset + byteLength front + byteLength trivia, spelling ++ rest⟩, comments⟩ :
          Scanner).next = _ := next_of_spelledBy _ .nothing spells ends
      rw [List.length_cons, after_succ, read] at stands'
      rw [after_add, stands, List.length_cons, after_succ, next_of_spelledBy _ between spells ends,
        byteLength_append, ← Nat.add_assoc, length]
      exact congrArg (fun scanner : Scanner => scanner.spot.offset) stands'
    · simpa using whole

end Formula
