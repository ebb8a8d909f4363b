/-
**The spellings of numbers.**

* `SpellsNumber.readable`: what spells a number has a value.
-/

import Formula.Literal

namespace Formula

/-- Holds of runs of digits, with one digit at least. -/
def Digits (characters : List Char) : Prop :=
  characters ≠ [] ∧ ∀ digit ∈ characters, digit.isDigit = true

/-- Holds of the spellings of numbers: digits, perhaps a point and digits, and perhaps an exponent,
which is a letter, perhaps a sign, and digits. -/
def SpellsNumber (characters : List Char) : Prop :=
  ∃ whole fraction exponent : List Char, characters = whole ++ (fraction ++ exponent) ∧
    Digits whole ∧
    (fraction = [] ∨ ∃ places, Digits places ∧ fraction = '.' :: places) ∧
    (exponent = [] ∨ ∃ sign digits, sign ∈ [[], ['+'], ['-']] ∧ Digits digits ∧
      exponent = 'e' :: (sign ++ digits))

/-! ### Reading -/

/-- A run of a class of characters is told apart from what comes after it. -/
theorem takeWhile_run {belongs : Char → Bool} {run rest : List Char}
    (all : ∀ character ∈ run, belongs character = true)
    (stops : ∀ next ∈ rest.head?, belongs next = false) :
    (run ++ rest).takeWhile belongs = run ∧ (run ++ rest).dropWhile belongs = rest := by
  rw [List.takeWhile_append_of_pos all, List.dropWhile_append_of_pos all]
  cases rest with
  | nil => simp
  | cons next rest =>
    have stop := stops next rfl
    simp [stop]

namespace Decimal

theorem exponentDigits?_of_digits {digits : List Char} (spells : Digits digits) :
    exponentDigits? digits = some (exponentSize digits) := by
  have all : digits.all Char.isDigit = true := List.all_eq_true.mpr spells.2
  rw [exponentDigits?, if_pos (by simp [spells.1, all])]

theorem exponent?_of_digits {sign digits : List Char} (isSign : sign ∈ [[], ['+'], ['-']])
    (spells : Digits digits) :
    exponent? ('e' :: (sign ++ digits)) =
      some (if sign = ['-'] then -(exponentSize digits : Int) else exponentSize digits) := by
  have read := exponentDigits?_of_digits spells
  simp only [List.mem_cons, List.not_mem_nil, or_false] at isSign
  rcases isSign with rfl | rfl | rfl
  · have unsigned : ∀ mark rest, digits = mark :: rest → mark.isDigit = true := by
      rintro mark rest rfl
      exact spells.2 mark List.mem_cons_self
    rw [List.nil_append, exponent?, read]
    · rfl
    · exact fun rest same => absurd (unsigned _ rest same) (by decide)
    · exact fun rest same => absurd (unsigned _ rest same) (by decide)
  · rw [List.singleton_append, exponent?, read]
    rfl
  · rw [List.singleton_append, exponent?, read]
    rfl

/-- The fraction that stands before an exponent is told apart from it. -/
theorem fraction_of_places {before places exponent : List Char}
    (spells : before = [] ∧ places = [] ∨ Digits places ∧ before = '.' :: places)
    (stops : ∀ next ∈ exponent.head?, next.isDigit = false ∧ next ≠ '.') :
    fraction (before ++ exponent) = (places, exponent) := by
  rcases spells with ⟨rfl, rfl⟩ | ⟨digits, rfl⟩
  · rw [List.nil_append, fraction]
    rintro rest rfl
    exact absurd rfl (stops '.' rfl).2
  · obtain ⟨taken, dropped⟩ := takeWhile_run digits.2 fun next first => (stops next first).1
    exact Prod.ext taken dropped

/-- A decimal is read part by part. -/
theorem ofDigits?_of_parts {whole before places exponent : List Char} (whole_digits : Digits whole)
    (spells : before = [] ∧ places = [] ∨ Digits places ∧ before = '.' :: places)
    (stops : ∀ next ∈ exponent.head?, next.isDigit = false ∧ next ≠ '.') :
    ofDigits? (whole ++ (before ++ exponent)) =
      (exponent? exponent).map fun shift =>
        ⟨digitsValue (whole ++ places), shift - places.length⟩ := by
  have rest_stops : ∀ next ∈ (before ++ exponent).head?, next.isDigit = false := by
    rcases spells with ⟨rfl, -⟩ | ⟨-, rfl⟩
    · exact fun next first => (stops next first).1
    · rintro next ⟨⟩
      decide
  obtain ⟨taken, dropped⟩ := takeWhile_run whole_digits.2 rest_stops
  simp only [ofDigits?, taken, dropped, fraction_of_places spells stops]
  rw [if_neg (by simp [whole_digits.1])]

/-- No exponent begins like a digit or a fraction. -/
theorem exponent_stops {exponent : List Char}
    (spells : exponent = [] ∨ ∃ sign digits, sign ∈ [[], ['+'], ['-']] ∧ Digits digits ∧
      exponent = 'e' :: (sign ++ digits)) :
    ∀ next ∈ exponent.head?, next.isDigit = false ∧ next ≠ '.' := by
  rcases spells with rfl | ⟨sign, digits, -, -, rfl⟩
  · simp
  · rintro next ⟨⟩
    decide

theorem ofDigits?_isSome {text : List Char} (spells : SpellsNumber text) :
    (ofDigits? text).isSome = true := by
  obtain ⟨whole, before, exponent, rfl, whole_digits, before_spells, exponent_spells⟩ := spells
  obtain ⟨places, places_spell⟩ :
      ∃ places, before = [] ∧ places = [] ∨ Digits places ∧ before = '.' :: places := by
    rcases before_spells with rfl | ⟨places, digits, rfl⟩
    · exact ⟨[], .inl ⟨rfl, rfl⟩⟩
    · exact ⟨places, .inr ⟨digits, rfl⟩⟩
  rw [ofDigits?_of_parts whole_digits places_spell (exponent_stops exponent_spells),
    Option.isSome_map]
  rcases exponent_spells with rfl | ⟨sign, digits, isSign, digits_spell, rfl⟩
  · rfl
  · rw [exponent?_of_digits isSign digits_spell]
    rfl

end Decimal

theorem SpellsNumber.unsigned {text : List Char} (spells : SpellsNumber text) :
    splitSign text = (false, text) := by
  obtain ⟨whole, rest, exponent, rfl, ⟨some_digit, digits⟩, -⟩ := spells
  cases whole with
  | nil => contradiction
  | cons digit whole =>
    have isDigit := digits digit List.mem_cons_self
    rw [List.cons_append]
    unfold splitSign
    split
    · rename_i same
      cases same
      cases isDigit
    · rename_i same
      cases same
      cases isDigit
    · rfl

/-- What spells a number has a value. -/
theorem SpellsNumber.readable {lexeme : String} (spells : SpellsNumber lexeme.toList) :
    ∃ literal, Literal.ofLexeme? lexeme = some literal := by
  unfold Literal.ofLexeme?
  split
  · exact ⟨_, rfl⟩
  · obtain ⟨decimal, read⟩ := Option.isSome_iff_exists.mp (Decimal.ofDigits?_isSome spells)
    simp only [Binary64.ofText?, spells.unsigned, read]
    exact ⟨_, rfl⟩

end Formula
