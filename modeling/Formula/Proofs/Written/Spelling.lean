/-
**Texts that have their tokens wherever they stand.**

A text writes tokens if these are its tokens in any larger text, as long as what comes after it is
clear of it: no letter, no digit, no point and no equals sign (`Writes`). Such texts can be put
together, with blanks between them, and have their tokens one after another.

* `Writes.cons`, `Writes.append`: from token to token, and from text to text.
* `Writes.blank`: blanks have no token.
* `Writes.spells`: the tokens of a whole text.
-/

import Formula.Proofs.LexicalGrammar

namespace Formula

open Scanner

/-! ### Before what is clear -/

/-- Holds of what goes on no word, no number and no mark. -/
def Clear (rest : List Char) : Prop :=
  ∀ next ∈ rest.head?, ¬ IsWordPart next ∧ next ≠ '.' ∧ next ≠ '='

theorem Clear.nothing : Clear [] := by
  simp [Clear]

theorem Clear.append {front rest : List Char} (clear : Clear front) (more : Clear rest) :
    Clear (front ++ rest) := by
  cases front with
  | nil => exact more
  | cons => exact clear

/-- A blank goes on nothing. -/
theorem Clear.of_isBlank {blank : Char} {rest : List Char} (isBlank : Text.isBlank blank = true) :
    Clear (blank :: rest) := by
  have other {character : Char} (no_blank : Text.isBlank character = false) :
      blank ≠ character := by
    rintro rfl
    cases isBlank.symm.trans no_blank
  rintro next ⟨⟩
  refine ⟨fun part => ?_, other (by decide), other (by decide)⟩
  cases isBlank.symm.trans (isBlank_of_isNamePart (isNamePart_iff.mpr part))

/-- Numbers, words and marks end before what is clear. -/
theorem Clear.endsAt {rest spelling : List Char} {token : Token} (clear : Clear rest)
    (spells : token.SpelledBy spelling) : token.EndsAt spelling rest := by
  have part : ∀ next ∈ rest.head?, ¬ IsWordPart next := fun next first => (clear next first).1
  have equals : ∀ next ∈ rest.head?, next ≠ '=' := fun next first => (clear next first).2.2
  cases token with
  | number lexeme =>
    have no_letter : ∀ next ∈ rest.head?, ¬ IsLetter next := fun next first letter =>
      part next first (.inl letter)
    refine ⟨no_letter, ?_⟩
    rintro more some_more ⟨tail, rfl⟩ longer
    obtain ⟨next, more, rfl⟩ := List.exists_cons_of_ne_nil some_more
    have no_digit : next.isDigit = false := Bool.eq_false_iff.mpr fun digit =>
      part next rfl (isNamePart_iff.mp (isNamePart_of_isDigit digit))
    exact (clear next rfl).2.1 (spells.1.point no_digit (no_letter next rfl) longer).1
  | operator which => cases which <;> first | exact trivial | exact part | exact equals
  | name letters => exact part
  | _ => exact trivial

/-! ### Blanks -/

/-- A blank before a text moves its tokens. -/
theorem Spelled.blank {comments : Bool} {offset : Nat} {text : List Char} {tokens : List Located}
    (spelled : Spelled comments (offset + byteLength [' ']) text tokens) :
    Spelled comments offset (' ' :: text) tokens := by
  generalize start : offset + byteLength [' '] = begin at spelled
  cases spelled with
  | done between => exact .done (.blank (by decide) between)
  | @token _ trivia spelling rest token tokens between spells ends more =>
    have moved : begin + byteLength trivia = offset + byteLength (' ' :: trivia) := by
      rw [← start, Nat.add_assoc, ← byteLength_append]
      rfl
    rw [moved] at more ⊢
    exact .token (.blank (by decide) between) spells ends more

/-! ### Writing -/

/-- Holds of a text that has these tokens wherever it stands before what is clear. -/
def Writes (text : List Char) (tokens : List Token) : Prop :=
  ∀ (comments : Bool) (offset : Nat) (rest : List Char) (after : List Located), Clear rest →
    Spelled comments (offset + byteLength text) rest after →
      ∃ located : List Located, located.map Located.token = tokens ∧
        Spelled comments offset (text ++ rest) (located ++ after)

namespace Writes

variable {text : List Char} {tokens : List Token}

theorem nothing : Writes [] [] :=
  fun _ _ _ _ _ spelled => ⟨[], rfl, spelled⟩

/-- A token before a text, where it does not go on. -/
theorem cons {token : Token} {spelling : List Char} (spells : token.SpelledBy spelling)
    (ends : ∀ rest, Clear rest → token.EndsAt spelling (text ++ rest)) (more : Writes text tokens) :
    Writes (spelling ++ text) (token :: tokens) := by
  intro comments offset rest after clear spelled
  rw [byteLength_append, ← Nat.add_assoc] at spelled
  obtain ⟨located, rfl, more_spelled⟩ := more comments _ rest after clear spelled
  refine ⟨⟨offset, token⟩ :: located, rfl, ?_⟩
  rw [List.append_assoc]
  exact .token .nothing spells (ends rest clear) more_spelled

/-- A token before what is clear of it. -/
theorem cons_clear {token : Token} {spelling : List Char} (spells : token.SpelledBy spelling)
    (clear : Clear text) (more : Writes text tokens) :
    Writes (spelling ++ text) (token :: tokens) :=
  cons spells (fun _ after => (clear.append after).endsAt spells) more

/-- A token alone. -/
theorem single {token : Token} {spelling : List Char} (spells : token.SpelledBy spelling) :
    Writes spelling [token] := by
  have alone := cons_clear spells Clear.nothing nothing
  rwa [List.append_nil] at alone

/-- A text before what is clear of it. -/
theorem append {next : List Char} {others : List Token} (first : Writes text tokens)
    (clear : Clear next) (second : Writes next others) :
    Writes (text ++ next) (tokens ++ others) := by
  intro comments offset rest after clear_rest spelled
  rw [byteLength_append, ← Nat.add_assoc] at spelled
  obtain ⟨located, rfl, second_spelled⟩ := second comments _ rest after clear_rest spelled
  obtain ⟨earlier, rfl, first_spelled⟩ :=
    first comments offset _ _ (clear.append clear_rest) second_spelled
  refine ⟨earlier ++ located, List.map_append, ?_⟩
  rw [List.append_assoc, List.append_assoc]
  exact first_spelled

/-- A blank before a text. -/
theorem blank (writes : Writes text tokens) : Writes (' ' :: text) tokens := by
  intro comments offset rest after clear spelled
  rw [← List.singleton_append, byteLength_append, ← Nat.add_assoc] at spelled
  obtain ⟨located, same, more⟩ := writes comments _ rest after clear spelled
  exact ⟨located, same, more.blank⟩

/-- The tokens of a whole text. -/
theorem spells {text : String} (writes : Writes text.toList tokens) (comments : Bool) :
    (Lexing.ofText text comments).Spells tokens := by
  obtain ⟨located, rfl, spelled⟩ :=
    writes comments 0 [] [] Clear.nothing (.done .nothing)
  rw [List.append_nil, List.append_nil] at spelled
  exact Lexing.ofText_of_spelled spelled

end Writes

/-! ### Between parentheses -/

/-- A text in parentheses. -/
theorem Writes.parenthesised {text : List Char} {tokens : List Token}
    (writes : Writes text tokens) :
    Writes ('(' :: (text ++ [')'])) (.openParen :: (tokens ++ [.closeParen])) := by
  have close : Token.closeParen.SpelledBy [')'] := rfl
  have opened : Token.openParen.SpelledBy ['('] := rfl
  have clear : Clear [')'] := by
    rintro next ⟨⟩
    decide
  exact .cons opened (fun _ _ => trivial) (writes.append clear (.single close))

end Formula
