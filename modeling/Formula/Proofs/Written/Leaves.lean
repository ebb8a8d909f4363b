/-
**What literals and references are written as.**

A literal is written as its canonical text, though a text between double quotes, and a reference as
its names with points between them. Where a literal has no sign and a reference has names, what is
written are the tokens of a derivation that stands for it.

* `Literal.written_derives`, `Reference.name_writes`.
-/

import Formula.Proofs.Grammar
import Formula.Proofs.Number.Layout
import Formula.Proofs.Written.Spelling

namespace Formula

open Scanner

/-! ### Literals -/

/-- A character as it is written between double quotes: the quote and the backslash are escaped. -/
def escapedCharacter : Char → List Char
  | '"' => ['\\', '"']
  | '\\' => ['\\', '\\']
  | character => [character]

namespace Literal

/-- What a literal is written as in an expression: its canonical text, and a text between double
quotes. -/
def written : Literal → String
  | text content => String.ofList ('"' :: (content.toList.flatMap escapedCharacter ++ ['"']))
  | integer value => (integer value).display
  | number value => (number value).display

/-- Holds of literals without a sign: integers from zero on, finite numbers whose sign bit is not
set, and texts. -/
def Unsigned : Literal → Prop
  | integer value => 0 ≤ value.toInt
  | number value => ∃ rank, value = .finite false rank
  | text _ => True

end Literal

theorem Quotes.escaped_content (content : List Char) :
    Quotes '"' (content.flatMap escapedCharacter) content := by
  induction content with
  | nil => exact .nothing
  | cons character content step =>
    rw [List.flatMap_cons]
    by_cases quote : character = '"'
    · subst quote
      exact .escaped (by decide) step
    · by_cases backslash : character = '\\'
      · subst backslash
        exact .escaped (by decide) step
      · have itself : escapedCharacter character = [character] := by
          unfold escapedCharacter
          split <;> first | contradiction | rfl
        rw [itself]
        exact .plain quote backslash step

/-- A number that is spelled out is kept as it is. -/
theorem SpellsNumber.kept {characters : List Char} (spells : SpellsNumber characters) :
    characters.map smallMark = characters := by
  obtain ⟨whole, fraction, exponent, rfl, digits, fraction_spells, exponent_spells⟩ := spells
  have exponent_kept : exponent.map smallMark = exponent := by
    rcases exponent_spells with rfl | ⟨sign, powers, is_sign, powers_digits, rfl⟩
    · rfl
    · exact map_smallMark_exponent List.mem_cons_self is_sign powers_digits
  rw [List.map_append, List.map_append, map_smallMark_digits digits,
    map_smallMark_fraction fraction_spells, exponent_kept]

theorem SpellsNumber.spelledBy {lexeme : String} (spells : SpellsNumber lexeme.toList) :
    (Token.number lexeme).SpelledBy lexeme.toList := by
  have kept := spells.kept
  exact ⟨(congrArg SpellsNumber kept).mpr spells, kept.symm⟩

namespace Literal

/-- A number lexeme that is spelled out derives the literal that it is read as. -/
theorem lexeme_derives {lexeme : String} {literal : Literal}
    (spells : SpellsNumber lexeme.toList) (read : ofLexeme? lexeme = some literal) :
    ∃ derivation : Derivation (.layers []), derivation.tree = .literal literal ∧
      derivation.level = 0 ∧ Writes lexeme.toList derivation.tokens := by
  refine ⟨.number lexeme, ?_, rfl, .single spells.spelledBy⟩
  have same : ofLexeme lexeme = literal := by
    rw [ofLexeme, read]
    rfl
  rw [Derivation.tree, same]

/-- What a literal is written as are the tokens of a derivation of it. -/
theorem written_derives {literal : Literal} (unsigned : literal.Unsigned) :
    ∃ derivation : Derivation (.layers []), derivation.tree = .literal literal ∧
      derivation.level = 0 ∧ Writes literal.written.toList derivation.tokens := by
  cases literal with
  | integer value => exact lexeme_derives (toString_spells unsigned) (ofLexeme?_toString unsigned)
  | number value =>
    obtain ⟨rank, rfl⟩ := unsigned
    exact lexeme_derives (canonical_shows rank).spells (ofLexeme?_canonical rank)
  | text content =>
    have body := Quotes.escaped_content content.toList
    refine ⟨.text content, rfl, rfl, ?_⟩
    rw [written, String.toList_ofList]
    exact .single ⟨'"', List.mem_cons_self, _, body, rfl⟩

end Literal

/-! ### References -/

theorem intercalate_toList (separator first : String) (rest : List String) :
    (separator.intercalate (first :: rest)).toList =
      first.toList ++ rest.flatMap fun next => separator.toList ++ next.toList := by
  induction rest generalizing first with
  | nil => simp
  | cons second rest step =>
    rw [String.intercalate_cons_cons, String.toList_append, String.toList_append, step,
      List.flatMap_cons, List.append_assoc, List.append_assoc]

/-- Holds of references that have names. -/
def Reference.Named (reference : Reference) : Prop :=
  reference.segments ≠ [] ∧ ∀ segment ∈ reference.segments, IsName segment

instance (reference : Reference) : Decidable reference.Named :=
  inferInstanceAs (Decidable (_ ∧ _))

section Names

variable {text : List Char} {tokens : List Token} (clear : Clear text) (writes : Writes text tokens)

include clear in
/-- A name ends before more names, and before what is clear of it. -/
theorem endsAt_names (letters : String) (names : List String) {rest : List Char}
    (clear_rest : Clear rest) : (Token.name letters).EndsAt letters.toList
      ((names.flatMap fun next => ".".toList ++ next.toList) ++ text ++ rest) := by
  rw [List.append_assoc]
  cases names with
  | nil => exact fun next first => (clear.append clear_rest next first).1
  | cons name names =>
    rintro next ⟨⟩
    decide

include clear writes

theorem names_write {names : List String} (each : ∀ name ∈ names, IsName name) :
    ∃ derivation : Derivation .names, derivation.tree = names ∧
      Writes ((names.flatMap fun next => ".".toList ++ next.toList) ++ text)
        (derivation.tokens ++ tokens) := by
  induction names with
  | nil => exact ⟨.lastName, rfl, writes⟩
  | cons name names step =>
    obtain ⟨derivation, tree, more⟩ := step fun name inside => each name (.tail _ inside)
    refine ⟨.name name derivation, congrArg (name :: ·) tree, ?_⟩
    have isName : (Token.name name).SpelledBy name.toList := ⟨each name List.mem_cons_self, rfl⟩
    have point : Token.dot.SpelledBy ".".toList := rfl
    rw [List.flatMap_cons, List.append_assoc, List.append_assoc]
    exact .cons point (fun _ _ => trivial)
      (.cons isName (fun _ clear_rest => endsAt_names clear name names clear_rest) more)

/-- The names of a reference before what is clear of them. -/
theorem Reference.name_writes {reference : Reference} (named : reference.Named) :
    ∃ first, ∃ derivation : Derivation .names, reference = ⟨first :: derivation.tree⟩ ∧
      Writes (reference.name.toList ++ text) (.name first :: (derivation.tokens ++ tokens)) := by
  obtain ⟨segments⟩ := reference
  obtain ⟨some_name, each⟩ := named
  obtain ⟨first, names, rfl⟩ := List.exists_cons_of_ne_nil some_name
  obtain ⟨derivation, rfl, more⟩ :=
    names_write clear writes fun name inside => each name (.tail _ inside)
  refine ⟨first, derivation, rfl, ?_⟩
  have isName : (Token.name first).SpelledBy first.toList := ⟨each first List.mem_cons_self, rfl⟩
  rw [Reference.name, intercalate_toList, List.append_assoc]
  exact .cons isName (fun _ clear_rest => endsAt_names clear first _ clear_rest) more

end Names

end Formula
