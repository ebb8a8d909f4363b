/-
**How tokens are spelled, and what stands between them.**

The lexical grammar of the language, apart from how it is read: it has tables and classes of
characters of its own, and the scanner's are proved to be these. A text is cut into trivia and
spellings by turns (`Spelled`): a token says which runs of characters spell it
(`Token.SpelledBy`), and where the longest run ends (`Token.EndsAt`), given the characters after it.

* `isBlank_iff`, `unescape_eq_some_iff`, `isNameStart_iff`, `isNamePart_iff`: what the scanner takes
  for a blank, for an escape and for a part of a word.
* `Token.SpelledBy.head`: no spelling begins like trivia.
* `IsNumeral.point`: a numeral goes on, other than with a digit or a letter, with a point only.
-/

import Formula.Proofs.Lexing
import Formula.Proofs.Number

namespace Formula

open Scanner

/-! ### Trivia -/

/-- The code points with the property White_Space. -/
def blanks : List Nat :=
  [0x9, 0xa, 0xb, 0xc, 0xd, 0x20, 0x85, 0xa0, 0x1680, 0x2000, 0x2001, 0x2002, 0x2003, 0x2004,
    0x2005, 0x2006, 0x2007, 0x2008, 0x2009, 0x200a, 0x2028, 0x2029, 0x202f, 0x205f, 0x3000]

/-- Holds of what may stand between tokens, before the rest of a text: blanks and, where they are
passed over, comments. A comment goes on up to the next line feed or to the end of the text. -/
inductive Trivia (comments : Bool) (rest : List Char) : List Char → Prop
  | nothing : Trivia comments rest []
  | blank {character : Char} {run : List Char} (isBlank : character.toNat ∈ blanks)
    (more : Trivia comments rest run) : Trivia comments rest (character :: run)
  | comment {body run : List Char} (passed : comments = true)
    (inLine : ∀ character ∈ body, character ≠ '\n')
    (ends : ∀ next ∈ (run ++ rest).head?, next = '\n') (more : Trivia comments rest run) :
    Trivia comments rest ('#' :: (body ++ run))

/-! ### Words -/

/-- Holds of the letters and the underscore, with which a word begins. -/
def IsLetter (character : Char) : Prop :=
  'A' ≤ character ∧ character ≤ 'Z' ∨ 'a' ≤ character ∧ character ≤ 'z' ∨ character = '_'

/-- Holds of the letters, the digits and the underscore, of which a word is made. -/
def IsWordPart (character : Char) : Prop :=
  IsLetter character ∨ '0' ≤ character ∧ character ≤ '9'

instance : DecidablePred IsLetter :=
  fun _ => inferInstanceAs (Decidable (_ ∨ _))

instance : DecidablePred IsWordPart :=
  fun _ => inferInstanceAs (Decidable (_ ∨ _))

/-- Holds of a letter or underscore with letters, digits and underscores after it. -/
def IsWord (characters : List Char) : Prop :=
  ∃ first parts, characters = first :: parts ∧ IsLetter first ∧ ∀ part ∈ parts, IsWordPart part

/-- Holds of the words that are no operators. -/
def IsName (letters : String) : Prop :=
  IsWord letters.toList ∧ letters ≠ "and" ∧ letters ≠ "or" ∧ letters ≠ "not"

theorem isNameStart_iff {character : Char} :
    isNameStart character = true ↔ IsLetter character := by
  delta isNameStart Char.isAlpha Char.isUpper Char.isLower
  simp only [Bool.or_eq_true, Bool.and_eq_true, decide_eq_true_eq, beq_iff_eq, or_assoc, IsLetter]
  exact Iff.rfl

theorem isNamePart_iff {character : Char} :
    isNamePart character = true ↔ IsWordPart character := by
  have parts : isNamePart character = (isNameStart character || character.isDigit) := by
    simp only [isNamePart, isNameStart, Char.isAlphanum, Bool.or_right_comm]
  rw [parts, Bool.or_eq_true, isNameStart_iff, Char.isDigit, Bool.and_eq_true, decide_eq_true_eq,
    decide_eq_true_eq]
  exact Iff.rfl

theorem isNameStart_eq_false_iff {character : Char} :
    isNameStart character = false ↔ ¬ IsLetter character := by
  rw [← isNameStart_iff, Bool.not_eq_true]

theorem isNamePart_eq_false_iff {character : Char} :
    isNamePart character = false ↔ ¬ IsWordPart character := by
  rw [← isNamePart_iff, Bool.not_eq_true]

theorem isWord_cons {first : Char} {parts : List Char} :
    IsWord (first :: parts) ↔ (isNameStart first && parts.all isNamePart) = true := by
  simp only [Bool.and_eq_true, List.all_eq_true, isNameStart_iff, isNamePart_iff]
  constructor
  · rintro ⟨_, _, ⟨⟩, starts⟩
    exact starts
  · exact fun starts => ⟨first, parts, rfl, starts⟩

-- By `List.all`: a quantifier over characters could be decided by going through all of them.
instance : DecidablePred IsWord
  | [] => .isFalse fun ⟨_, _, same, _⟩ => List.cons_ne_nil _ _ same.symm
  | _ :: _ => decidable_of_iff _ isWord_cons.symm

instance (letters : String) : Decidable (IsName letters) :=
  inferInstanceAs (Decidable (_ ∧ _))

/-! ### Numerals -/

/-- The mark of an exponent as it is kept; all other characters are kept as they are. -/
def smallMark (character : Char) : Char :=
  if character = 'E' then 'e' else character

/-- Holds of numbers as they are written in a text, with an exponent marked by either letter. -/
def IsNumeral (characters : List Char) : Prop :=
  SpellsNumber (characters.map smallMark)

/-! ### Quoted texts -/

/-- The characters that a backslash can stand before, each with the one that both stand for. -/
def escapes : List (Char × Char) :=
  [('n', '\n'), ('t', '\t'), ('r', '\r'), ('"', '"'), ('\'', '\''), ('\\', '\\')]

/-- Holds of what stands between two quotes, with the content that it stands for: an escape stands
for its character, and any other character, the quote and the backslash apart, for itself. -/
inductive Quotes (quote : Char) : List Char → List Char → Prop
  | nothing : Quotes quote [] []
  | plain {character : Char} {body content : List Char} (inside : character ≠ quote)
    (unescaped : character ≠ '\\') (more : Quotes quote body content) :
    Quotes quote (character :: body) (character :: content)
  | escaped {escape character : Char} {body content : List Char}
    (known : (escape, character) ∈ escapes) (more : Quotes quote body content) :
    Quotes quote ('\\' :: escape :: body) (character :: content)

/-! ### Tokens -/

/-- The characters that are marks, or begin one, whatever comes after them. -/
def marks : List Char :=
  ['+', '-', '*', '/', '%', '~', '|', '&', '(', ')', ',', '.', '<', '>']

/-- Holds of the runs of characters that spell a token. -/
def Token.SpelledBy : Token → List Char → Prop
  | number lexeme, spelling => IsNumeral spelling ∧ lexeme.toList = spelling.map smallMark
  | text content, spelling => ∃ quote ∈ ['"', '\''], ∃ body,
    Quotes quote body content.toList ∧ spelling = quote :: (body ++ [quote])
  | name letters, spelling => IsName letters ∧ spelling = letters.toList
  | operator which, spelling => spelling = which.symbol.toList
  | openParen, spelling => spelling = ['(']
  | closeParen, spelling => spelling = [')']
  | comma, spelling => spelling = [',']
  | dot, spelling => spelling = ['.']
  | endOfInput, _ => False

/-- Holds where no longer run of characters spells a token: a word does not go on, nor does a
number, and the marks for less and greater are not followed by an equals sign. No letter follows a
number either. -/
def Token.EndsAt (token : Token) (spelling rest : List Char) : Prop :=
  match token with
  | number _ => (∀ next ∈ rest.head?, ¬ IsLetter next) ∧
    ∀ more, more ≠ [] → more <+: rest → ¬ IsNumeral (spelling ++ more)
  | name _ | operator .and | operator .or | operator .not => ∀ next ∈ rest.head?, ¬ IsWordPart next
  | operator .less | operator .greater => ∀ next ∈ rest.head?, next ≠ '='
  | _ => True

/-! ### Texts -/

/-- Holds of the texts that are trivia and spellings of the tokens by turns, from an offset on. -/
inductive Spelled (comments : Bool) : Nat → List Char → List Located → Prop
  | done {offset : Nat} {trivia : List Char} (between : Trivia comments [] trivia) :
    Spelled comments offset trivia []
  | token {offset : Nat} {trivia spelling rest : List Char} {token : Token} {tokens : List Located}
    (between : Trivia comments (spelling ++ rest) trivia) (spells : token.SpelledBy spelling)
    (ends : token.EndsAt spelling rest)
    (more : Spelled comments (offset + byteLength trivia + byteLength spelling) rest tokens) :
    Spelled comments offset (trivia ++ (spelling ++ rest))
      (⟨offset + byteLength trivia, token⟩ :: tokens)

/-! ### Characters -/

theorem isBlank_iff {character : Char} :
    Text.isBlank character = true ↔ character.toNat ∈ blanks := by
  simp only [Text.isBlank, Text.inRanges, Text.blankRanges, List.any_cons, List.any_nil,
    Bool.or_false, Bool.or_eq_true, Bool.and_eq_true, decide_eq_true_eq, blanks, List.mem_cons,
    List.not_mem_nil, or_false]
  omega

/-- The scanner knows the escapes of the language, and no others. -/
theorem unescape_eq_some_iff {escape character : Char} :
    unescape escape = some character ↔ (escape, character) ∈ escapes := by
  constructor
  · intro meant
    unfold unescape at meant
    split at meant <;> cases meant <;> decide
  · intro known
    simp only [escapes, List.mem_cons, Prod.mk.injEq, List.not_mem_nil, or_false] at known
    rcases known with ⟨rfl, rfl⟩ | ⟨rfl, rfl⟩ | ⟨rfl, rfl⟩ | ⟨rfl, rfl⟩ | ⟨rfl, rfl⟩ | ⟨rfl, rfl⟩
    all_goals rfl

theorem unescape_eq_none_iff {escape : Char} :
    unescape escape = none ↔ escape ∉ escapes.map Prod.fst := by
  simp only [Option.eq_none_iff_forall_ne_some, ne_eq, unescape_eq_some_iff, List.mem_map,
    Prod.exists, exists_and_right, exists_eq_right, not_exists]

theorem isNamePart_of_isNameStart {character : Char} (starts : isNameStart character = true) :
    isNamePart character = true :=
  isNamePart_iff.mpr (.inl (isNameStart_iff.mp starts))

theorem IsWord.parts {characters : List Char} (word : IsWord characters) :
    ∀ part ∈ characters, isNamePart part = true := by
  obtain ⟨first, parts, rfl, starts, all⟩ := word
  rintro part (_ | ⟨_, inside⟩)
  · exact isNamePart_of_isNameStart (isNameStart_iff.mpr starts)
  · exact isNamePart_iff.mpr (all part inside)

theorem toNat_of_isNameStart {character : Char} (starts : isNameStart character = true) :
    65 ≤ character.toNat ∧ character.toNat ≤ 122 := by
  rcases isNameStart_iff.mp starts with ⟨low, high⟩ | ⟨low, high⟩ | rfl
  · have low : 65 ≤ character.toNat := low
    have high : character.toNat ≤ 90 := high
    omega
  · have low : 97 ≤ character.toNat := low
    have high : character.toNat ≤ 122 := high
    omega
  · decide

/-- No name begins with a digit. -/
theorem isDigit_of_isNameStart {character : Char} (starts : isNameStart character = true) :
    character.isDigit = false := by
  have bounds := toNat_of_isNameStart starts
  refine eq_false_of_ne_true fun digit => ?_
  have high : character.toNat ≤ 57 := (Char.isDigit_iff_toNat.mp digit).2
  omega

theorem toNat_of_isNamePart {character : Char} (part : isNamePart character = true) :
    48 ≤ character.toNat ∧ character.toNat ≤ 122 := by
  rcases isNamePart_iff.mp part with letter | ⟨low, high⟩
  · have bounds := toNat_of_isNameStart (isNameStart_iff.mpr letter)
    omega
  · have low : 48 ≤ character.toNat := low
    have high : character.toNat ≤ 57 := high
    omega

/-- No character of a word is a blank. -/
theorem isBlank_of_isNamePart {character : Char} (part : isNamePart character = true) :
    Text.isBlank character = false := by
  have bounds := toNat_of_isNamePart part
  refine eq_false_of_ne_true fun blank => ?_
  have listed := isBlank_iff.mp blank
  simp only [blanks, List.mem_cons, List.not_mem_nil, or_false] at listed
  omega

theorem isNamePart_of_isDigit {character : Char} (digit : character.isDigit = true) :
    isNamePart character = true := by
  rw [Char.isDigit, Bool.and_eq_true, decide_eq_true_eq, decide_eq_true_eq] at digit
  exact isNamePart_iff.mpr (.inr digit)

/-! ### Numerals -/

theorem smallMark_of_ne {character : Char} (other : character ≠ 'E') :
    smallMark character = character :=
  if_neg other

theorem smallMark_eq {character kept : Char} (same : smallMark character = kept) :
    character = kept ∨ character = 'E' ∧ kept = 'e' := by
  by_cases mark : character = 'E'
  · exact .inr ⟨mark, by rw [← same, mark]; rfl⟩
  · exact .inl ((smallMark_of_ne mark).symm.trans same)

/-- Without the mark of an exponent, nothing is kept otherwise than it is written. -/
theorem map_smallMark_eq {characters kept : List Char} (same : characters.map smallMark = kept)
    (unmarked : 'e' ∉ kept) : characters = kept := by
  induction characters generalizing kept with
  | nil => exact same
  | cons character rest step =>
    subst same
    rw [List.map_cons, List.mem_cons, not_or] at unmarked
    rcases smallMark_eq (rfl : smallMark character = _) with here | ⟨-, mark⟩
    · rw [List.map_cons, ← here, ← step rfl unmarked.2]
    · exact absurd mark.symm unmarked.1

theorem Digits.not_mem {digits : List Char} (spells : Digits digits) {character : Char}
    (other : character.isDigit = false) : character ∉ digits := by
  intro inside
  rw [spells.2 character inside] at other
  cases other

theorem map_smallMark_digits {digits : List Char} (spells : Digits digits) :
    digits.map smallMark = digits := by
  refine (List.map_congr_left fun digit inside => ?_).trans (List.map_id digits)
  refine smallMark_of_ne ?_
  rintro rfl
  exact spells.not_mem (by decide) inside

theorem map_smallMark_fraction {fraction : List Char}
    (spells : fraction = [] ∨ ∃ places, Digits places ∧ fraction = '.' :: places) :
    fraction.map smallMark = fraction := by
  rcases spells with rfl | ⟨places, digits, rfl⟩
  · rfl
  · rw [List.map_cons, map_smallMark_digits digits]
    rfl

/-- The marks of an exponent are letters. -/
theorem exponentMark {mark : Char} (is_mark : mark ∈ ['e', 'E']) :
    IsLetter mark ∧ mark.isDigit = false ∧ mark.utf8Size = 1 := by
  simp only [List.mem_cons, List.not_mem_nil, or_false] at is_mark
  rcases is_mark with rfl | rfl <;> decide

/-- An exponent is kept as it is, its mark apart. -/
theorem map_smallMark_exponent {mark : Char} {sign digits : List Char} (is_mark : mark ∈ ['e', 'E'])
    (is_sign : sign ∈ [[], ['+'], ['-']]) (spells : Digits digits) :
    (mark :: (sign ++ digits)).map smallMark = 'e' :: (sign ++ digits) := by
  have mark_kept : smallMark mark = 'e' := by
    simp only [List.mem_cons, List.not_mem_nil, or_false] at is_mark
    rcases is_mark with rfl | rfl <;> rfl
  have sign_kept : ∀ sign ∈ [[], ['+'], ['-']], sign.map smallMark = sign := by decide
  rw [List.map_cons, List.map_append, mark_kept, sign_kept sign is_sign,
    map_smallMark_digits spells]

/-- A number as it is written has digits, perhaps a fraction and perhaps an exponent. -/
theorem isNumeral_iff {characters : List Char} :
    IsNumeral characters ↔ ∃ whole fraction exponent : List Char,
      characters = whole ++ (fraction ++ exponent) ∧ Digits whole ∧
      (fraction = [] ∨ ∃ places, Digits places ∧ fraction = '.' :: places) ∧
      (exponent = [] ∨ ∃ mark sign digits, mark ∈ ['e', 'E'] ∧ sign ∈ [[], ['+'], ['-']] ∧
        Digits digits ∧ exponent = mark :: (sign ++ digits)) := by
  have sign_unmarked : ∀ sign ∈ [[], ['+'], ['-']], 'e' ∉ sign := by decide
  constructor
  · rintro ⟨whole, fraction, exponent, spelled, digits, fraction_spells, exponent_spells⟩
    obtain ⟨first, after, rfl, first_kept, after_kept⟩ := List.map_eq_append_iff.mp spelled
    obtain ⟨second, third, rfl, second_kept, third_kept⟩ := List.map_eq_append_iff.mp after_kept
    have second_unmarked : 'e' ∉ fraction := by
      rcases fraction_spells with rfl | ⟨places, places_digits, rfl⟩
      · exact List.not_mem_nil
      · rw [List.mem_cons, not_or]
        exact ⟨by decide, places_digits.not_mem (by decide)⟩
    cases map_smallMark_eq first_kept (digits.not_mem (by decide))
    cases map_smallMark_eq second_kept second_unmarked
    refine ⟨_, _, third, rfl, digits, fraction_spells, ?_⟩
    rcases exponent_spells with rfl | ⟨sign, places, is_sign, places_digits, rfl⟩
    · exact .inl (List.map_eq_nil_iff.mp third_kept)
    · obtain ⟨mark, tail, rfl, kept, tail_kept⟩ := List.map_eq_cons_iff.mp third_kept
      have tail_unmarked : 'e' ∉ sign ++ places := by
        rw [List.mem_append, not_or]
        exact ⟨sign_unmarked sign is_sign, places_digits.not_mem (by decide)⟩
      cases map_smallMark_eq tail_kept tail_unmarked
      refine .inr ⟨mark, sign, places, ?_, is_sign, places_digits, rfl⟩
      rcases smallMark_eq kept with rfl | ⟨rfl, -⟩ <;> decide
  · rintro ⟨whole, fraction, exponent, rfl, digits, fraction_spells, exponent_spells⟩
    refine ⟨whole, fraction, exponent.map smallMark, ?_, digits, fraction_spells, ?_⟩
    · rw [List.map_append, List.map_append, map_smallMark_digits digits,
        map_smallMark_fraction fraction_spells]
    · rcases exponent_spells with rfl | ⟨mark, sign, places, is_mark, is_sign, places_digits, rfl⟩
      · exact .inl rfl
      · exact .inr ⟨sign, places, is_sign, places_digits,
          map_smallMark_exponent is_mark is_sign places_digits⟩

/-- A character that does not belong to a run stands after it. -/
theorem split_after {belongs : Char → Bool} {front more run rest : List Char} {next : Char}
    (all : ∀ character ∈ run, belongs character = true) (other : belongs next = false)
    (same : run ++ rest = front ++ next :: more) :
    ∃ passed, front = run ++ passed ∧ rest = passed ++ next :: more := by
  rcases List.append_eq_append_iff.mp same with ⟨passed, rfl, after⟩ | ⟨inside, rfl, after⟩
  · exact ⟨passed, rfl, after⟩
  · cases inside with
    | nil => exact ⟨[], by simp, after.symm⟩
    | cons character inside =>
      obtain ⟨rfl, -⟩ := List.cons.inj after
      rw [all next (by simp)] at other
      cases other

theorem Digits.last {digits front : List Char} {last : Char} (spells : Digits digits)
    (before : List Char) (same : front ++ [last] = before ++ digits) : last.isDigit = true := by
  have ends := congrArg List.getLast? same
  rw [List.getLast?_concat, List.getLast?_append, List.getLast?_eq_some_getLast spells.1] at ends
  exact spells.2 last (Option.some.inj ends ▸ List.getLast_mem spells.1)

/-- A number ends with a digit. -/
theorem IsNumeral.last {front : List Char} {last : Char} (numeral : IsNumeral (front ++ [last])) :
    last.isDigit = true := by
  obtain ⟨whole, fraction, exponent, same, digits, fraction_spells, exponent_spells⟩ :=
    isNumeral_iff.mp numeral
  rcases exponent_spells with rfl | ⟨mark, sign, places, -, -, places_digits, rfl⟩
  · rcases fraction_spells with rfl | ⟨places, places_digits, rfl⟩
    · exact digits.last [] (by simpa using same)
    · exact places_digits.last (whole ++ ['.']) (by simpa using same)
  · exact places_digits.last (whole ++ (fraction ++ mark :: sign)) (by simpa using same)

section Longer

variable {next : Char} {more : List Char} (no_digit : next.isDigit = false)
  (no_letter : ¬ IsLetter next)

include no_digit no_letter

/-- Within an exponent a number has not ended, unless before a digit. -/
theorem IsNumeral.exponent_ended {front passed exponent : List Char}
    (numeral : IsNumeral (front ++ passed))
    (spells : exponent = [] ∨ ∃ mark sign digits, mark ∈ ['e', 'E'] ∧
      sign ∈ [[], ['+'], ['-']] ∧ Digits digits ∧ exponent = mark :: (sign ++ digits))
    (same : exponent = passed ++ next :: more) : False := by
  rcases spells with rfl | ⟨mark, sign, digits, is_mark, is_sign, digits_spell, rfl⟩
  · exact List.append_ne_nil_of_right_ne_nil passed (List.cons_ne_nil next more) same.symm
  have missing : next ∉ digits := digits_spell.not_mem no_digit
  cases passed with
  | nil =>
    obtain ⟨rfl, -⟩ := List.cons.inj same
    exact no_letter (exponentMark is_mark).1
  | cons first passed =>
    rw [List.cons_append, List.cons.injEq] at same
    obtain ⟨rfl, after⟩ := same
    cases passed with
    | nil =>
      have digit := numeral.last
      rw [(exponentMark is_mark).2.1] at digit
      cases digit
    | cons second passed =>
      simp only [List.mem_cons, List.not_mem_nil, or_false] at is_sign
      rcases is_sign with rfl | rfl | rfl
      all_goals simp only [List.cons_append, List.nil_append, List.cons.injEq] at after
      · exact missing (after ▸ by simp)
      · exact missing (after.2 ▸ by simp)
      · exact missing (after.2 ▸ by simp)

/-- A number goes on, other than with a digit or a letter, with the point of its fraction only, and
then it has been a run of digits so far. -/
theorem IsNumeral.point {spelling : List Char} (numeral : IsNumeral spelling)
    (longer : IsNumeral (spelling ++ next :: more)) :
    next = '.' ∧ Digits spelling ∧ ∃ place ∈ more.head?, place.isDigit = true := by
  obtain ⟨whole, fraction, exponent, same, digits, fraction_spells, exponent_spells⟩ :=
    isNumeral_iff.mp longer
  obtain ⟨passed, rfl, after⟩ := split_after digits.2 no_digit same.symm
  rcases fraction_spells with rfl | ⟨places, places_digits, rfl⟩
  · exact (numeral.exponent_ended no_digit no_letter exponent_spells after).elim
  · cases passed with
    | nil =>
      obtain ⟨rfl, rfl⟩ := List.cons.inj after
      rw [List.append_nil]
      refine ⟨rfl, digits, ?_⟩
      obtain ⟨place, rest, rfl⟩ := List.exists_cons_of_ne_nil places_digits.1
      exact ⟨place, rfl, places_digits.2 place List.mem_cons_self⟩
    | cons first passed =>
      rw [List.cons_append, List.cons_append, List.cons.injEq] at after
      obtain ⟨rfl, tail⟩ := after
      obtain ⟨passed, rfl, beyond⟩ := split_after places_digits.2 no_digit tail
      rw [← List.cons_append, ← List.append_assoc] at numeral
      exact (numeral.exponent_ended no_digit no_letter exponent_spells beyond).elim

end Longer

/-! ### Beginnings -/

theorem Digits.head {digits : List Char} (spells : Digits digits) (rest : List Char) :
    ∃ first more, digits ++ rest = first :: more ∧ first.isDigit = true := by
  obtain ⟨first, more, rfl⟩ := List.exists_cons_of_ne_nil spells.1
  exact ⟨first, more ++ rest, rfl, spells.2 first List.mem_cons_self⟩

theorem IsNumeral.head {spelling : List Char} (numeral : IsNumeral spelling) :
    ∃ first rest, spelling = first :: rest ∧ first.isDigit = true := by
  obtain ⟨whole, fraction, exponent, rfl, digits, -⟩ := isNumeral_iff.mp numeral
  exact digits.head (fraction ++ exponent)

/-- No spelling begins like trivia. -/
theorem Token.SpelledBy.head {token : Token} {spelling : List Char}
    (spells : token.SpelledBy spelling) :
    ∃ first rest, spelling = first :: rest ∧ Text.isBlank first = false ∧ first ≠ '#' := by
  have part {first : Char} (part : isNamePart first = true) :
      Text.isBlank first = false ∧ first ≠ '#' :=
    ⟨isBlank_of_isNamePart part, by rintro rfl; cases part⟩
  cases token with
  | number lexeme =>
    obtain ⟨first, rest, rfl, digit⟩ := spells.1.head
    exact ⟨first, rest, rfl, part (isNamePart_of_isDigit digit)⟩
  | text content =>
    obtain ⟨quote, is_quote, body, -, rfl⟩ := spells
    refine ⟨quote, _, rfl, ?_⟩
    simp only [List.mem_cons, List.not_mem_nil, or_false] at is_quote
    rcases is_quote with rfl | rfl <;> decide
  | name letters =>
    obtain ⟨⟨⟨first, parts, same, starts, -⟩, -⟩, rfl⟩ := spells
    exact ⟨first, parts, same, part (isNamePart_of_isNameStart (isNameStart_iff.mpr starts))⟩
  | operator which =>
    cases show spelling = which.symbol.toList from spells
    cases which <;> exact ⟨_, _, rfl, by decide, by decide⟩
  | endOfInput => exact spells.elim
  | _ =>
    cases spells
    exact ⟨_, _, rfl, by decide, by decide⟩

end Formula
