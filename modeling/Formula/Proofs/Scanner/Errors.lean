/-
**Where no token can be read.**

The scanner reports an error exactly where the rest of a text is unreadable (`Unreadable`): at a
character that begins no token, in a quoted text that has no end or a bad escape, and in a number
whose exponent has no digit or that a letter follows. Each cause has its own place, and the rest at
which reading goes on.

* `Scanner.scan_error_iff`: the errors of one reading, and what is left after them.
* `Scanner.ofText_errors`: the errors of a text, after any number of readings.
-/

import Formula.Proofs.Scanner.Progress
import Formula.Proofs.LexicalGrammar

namespace Formula

open Scanner

/-! ### Where no token can be read -/

/-- Holds of a character that can begin a token before these characters. -/
def Begins (character : Char) (after : List Char) : Prop :=
  character.isDigit = true ∨ IsLetter character ∨ character ∈ ['"', '\''] ∨
    character ∈ marks ∨ character ∈ ['=', '!'] ∧ after.head? = some '='

/-- Holds of the text of a number up to the letter and the sign of its exponent, where no digit
comes after them, as it is kept. -/
def OpenExponent (text kept after : List Char) : Prop :=
  ∃ whole fraction sign : List Char, ∃ mark ∈ ['e', 'E'], Digits whole ∧
    (fraction = [] ∨ ∃ places, Digits places ∧ fraction = '.' :: places) ∧ SignAt sign after ∧
    (∀ next ∈ after.head?, next.isDigit = false) ∧
    text = whole ++ (fraction ++ mark :: (sign ++ after)) ∧
    kept = whole ++ (fraction ++ 'e' :: sign)

/-- Holds of a number, as long as can be, with the letters, digits and underscores after it, the
first of which is no digit, as they are kept. -/
def LetteredNumber (text kept after : List Char) : Prop :=
  ∃ whole fraction exponent letters : List Char,
    NumberAt whole fraction exponent (letters ++ after) ∧ IsWord letters ∧
    (∀ next ∈ after.head?, ¬ IsWordPart next) ∧
    text = whole ++ (fraction ++ (exponent ++ (letters ++ after))) ∧
    kept = (whole ++ (fraction ++ exponent)).map smallMark ++ letters

/-- Holds of the rest of a text, from an offset on, with the error that is read there and what is
left after it. -/
inductive Unreadable (offset : Nat) : List Char → ParseError → List Char → Prop
  | character {character : Char} {rest : List Char} (other : ¬ Begins character rest) :
    Unreadable offset (character :: rest) ⟨.unexpectedCharacter character, offset⟩
      (character :: rest)
  | text {quote : Char} {body content ending : List Char} (is_quote : quote ∈ ['"', '\''])
    (quotes : Quotes quote body content) (is_ending : ending ∈ [[], ['\\']]) :
    Unreadable offset (quote :: (body ++ ending)) ⟨.unterminatedText, offset⟩ []
  | escape {quote escape : Char} {body content rest : List Char} (is_quote : quote ∈ ['"', '\''])
    (quotes : Quotes quote body content) (unknown : escape ∉ escapes.map Prod.fst) :
    Unreadable offset (quote :: (body ++ '\\' :: escape :: rest))
      ⟨.invalidEscape escape, offset + byteLength (quote :: body)⟩ (escape :: rest)
  | number {text kept after : List Char}
    (malformed : OpenExponent text kept after ∨ LetteredNumber text kept after) :
    Unreadable offset text ⟨.malformedNumber (String.ofList kept), offset⟩ after

namespace Scanner

/-! ### Characters -/

/-- What begins no token is a character of its own. -/
theorem not_begins_iff {character : Char} {rest : List Char} :
    ¬ Begins character rest ↔ character.isDigit = false ∧ isNameStart character = false ∧
      (character == '"' || character == '\'') = false ∧ mark? (character :: rest) = none := by
  rw [mark?_eq_none_iff, isNameStart_eq_false_iff]
  simp only [Begins, not_or, Bool.not_eq_true, List.mem_cons, List.not_mem_nil, or_false,
    Bool.or_eq_false_iff, beq_eq_false_iff_ne, ne_eq]

/-! ### Quoted texts -/

theorem scanContent_unterminated {quote : Char} (is_quote : quote ∈ ['"', '\''])
    {body content ending : List Char} (quotes : Quotes quote body content)
    (is_ending : ending ∈ [[], ['\\']]) (opening offset : Nat) (before : List Char) :
    scanContent opening quote offset before (body ++ ending) =
      (.error ⟨.unterminatedText, opening⟩, ⟨offset + byteLength (body ++ ending), []⟩) := by
  have no_backslash := backslash_ne is_quote
  rw [scanContent_body is_quote quotes, byteLength_append, scanContent.eq_def]
  simp only [List.mem_cons, List.not_mem_nil, or_false] at is_ending
  rcases is_ending with rfl | rfl
  · rfl
  · simp only [if_neg no_backslash, if_pos, Nat.add_assoc]
    rfl

theorem scanContent_unknown {quote : Char} (is_quote : quote ∈ ['"', '\''])
    {body content : List Char} (quotes : Quotes quote body content) {escape : Char}
    (unknown : escape ∉ escapes.map Prod.fst) (opening offset : Nat) (before rest : List Char) :
    scanContent opening quote offset before (body ++ '\\' :: escape :: rest) =
      (.error ⟨.invalidEscape escape, offset + byteLength body⟩,
        ⟨offset + byteLength body + 1, escape :: rest⟩) := by
  have no_backslash := backslash_ne is_quote
  rw [scanContent_body is_quote quotes, scanContent.eq_def]
  simp only [if_neg no_backslash, if_pos, unescape_eq_none_iff.mpr unknown]
  rfl

/-- What stands where a text does not come to its end. -/
theorem scanContent_fails {opening offset : Nat} {quote : Char} {before text : List Char}
    {error : ParseError} {after : Spot}
    (scanned : scanContent opening quote offset before text = (.error error, after)) :
    ∃ body content, Quotes quote body content ∧
      ((∃ ending ∈ [[], ['\\']], text = body ++ ending ∧
          error = ⟨.unterminatedText, opening⟩ ∧ after.rest = []) ∨
        ∃ escape rest, text = body ++ '\\' :: escape :: rest ∧ escape ∉ escapes.map Prod.fst ∧
          error = ⟨.invalidEscape escape, offset + byteLength body⟩ ∧
          after.rest = escape :: rest) := by
  fun_induction scanContent opening quote offset before text with
  | case1 =>
    cases scanned
    exact ⟨[], [], .nothing, .inl ⟨[], by decide, rfl, rfl, rfl⟩⟩
  | case2 => cases scanned
  | case3 =>
    cases scanned
    exact ⟨[], [], .nothing, .inl ⟨['\\'], by decide, rfl, rfl, rfl⟩⟩
  | case4 offset before escape rest meant found inside step =>
    have known := unescape_eq_some_iff.mp found
    obtain ⟨body, content, quotes, ended | bad⟩ := step scanned
    · obtain ⟨ending, is_ending, rfl, rest⟩ := ended
      exact ⟨_, _, .escaped known quotes, .inl ⟨ending, is_ending, rfl, rest⟩⟩
    · obtain ⟨other, rest, rfl, unknown, rfl, left⟩ := bad
      refine ⟨_, _, .escaped known quotes, .inr ⟨other, rest, rfl, unknown, ?_, left⟩⟩
      rw [byteLength_cons, byteLength_cons, Nat.add_assoc, Nat.add_assoc]
  | case5 offset before escape rest nothing inside =>
    cases scanned
    have unknown := unescape_eq_none_iff.mp nothing
    exact ⟨[], [], .nothing, .inr ⟨escape, rest, rfl, unknown, rfl, rfl⟩⟩
  | case6 offset before character rest inside unescaped step =>
    obtain ⟨body, content, quotes, ended | bad⟩ := step scanned
    · obtain ⟨ending, is_ending, rfl, rest⟩ := ended
      exact ⟨_, _, .plain inside unescaped quotes, .inl ⟨ending, is_ending, rfl, rest⟩⟩
    · obtain ⟨other, rest, rfl, unknown, rfl, left⟩ := bad
      refine ⟨_, _, .plain inside unescaped quotes, .inr ⟨other, rest, rfl, unknown, ?_, left⟩⟩
      rw [byteLength_cons, Nat.add_assoc]

/-! ### Numbers -/

/-- What stands where an exponent has no digit. -/
theorem scanExponent_open {spot after : Spot} {kept : List Char}
    (scanned : scanExponent spot = (kept, none, after)) :
    ∃ mark ∈ ['e', 'E'], ∃ sign, SignAt sign after.rest ∧
      (∀ next ∈ after.rest.head?, next.isDigit = false) ∧
      spot.rest = mark :: (sign ++ after.rest) ∧ kept = 'e' :: sign := by
  unfold scanExponent at scanned
  split at scanned
  · rename_i mark rest here
    split at scanned
    · rename_i marks
      have is_mark : mark ∈ ['e', 'E'] := by simpa using marks
      have next : (spot.skip 1).rest = rest := by rw [Spot.skip, here]; rfl
      have all := (scanSign (spot.skip 1)).2.span_append Char.isDigit
      have stops := (scanSign (spot.skip 1)).2.span_stops Char.isDigit
      simp only [Prod.mk.injEq] at scanned
      obtain ⟨rfl, digits_eq, rfl⟩ := scanned
      split at digits_eq
      · rename_i no_digit
        rw [List.isEmpty_iff.mp no_digit, List.nil_append] at all
        refine ⟨mark, is_mark, _, all ▸ scanSign_signAt _, stops, ?_, rfl⟩
        rw [here, ← next, scanSign_append (spot.skip 1), all]
      · cases digits_eq
    · cases scanned
  · cases scanned

theorem scanExponent_of_open {spot : Spot} {mark : Char} {sign rest : List Char}
    (is_mark : mark ∈ ['e', 'E']) (signAt : SignAt sign rest)
    (stops : ∀ next ∈ rest.head?, next.isDigit = false)
    (here : spot.rest = mark :: (sign ++ rest)) :
    scanExponent spot =
      ('e' :: sign, none, ⟨spot.offset + byteLength (mark :: sign), rest⟩) := by
  have marks : (mark == 'e' || mark == 'E') = true := by simpa using is_mark
  have next : (spot.skip 1).rest = sign ++ rest := by rw [Spot.skip, here]; rfl
  have offset : (spot.skip 1).offset = spot.offset + mark.utf8Size := by rw [Spot.skip, here]; rfl
  unfold scanExponent
  rw [here]
  simp only [marks, if_true, scanSign_of_signAt next signAt]
  rw [Spot.span_of_run (List.nil_append rest).symm (List.forall_mem_nil _) stops, offset,
    byteLength_cons, ← Nat.add_assoc spot.offset]
  rfl

/-- What stands where a number is malformed. -/
theorem scanNumber_fails {spot after : Spot} {digit : Char} {more : List Char} {error : ParseError}
    (here : spot.rest = digit :: more) (isDigit : digit.isDigit = true)
    (scanned : scanNumber spot = (.error error, after)) :
    ∃ kept, error = ⟨.malformedNumber (String.ofList kept), spot.offset⟩ ∧
      (OpenExponent spot.rest kept after.rest ∨ LetteredNumber spot.rest kept after.rest) := by
  simp only [scanNumber] at scanned
  split at scanned
  · rename_i kept ended found
    cases scanned
    obtain ⟨mark, is_mark, sign, signAt, stops, exponent_append, rfl⟩ := scanExponent_open found
    refine ⟨_, rfl, .inl ⟨_, _, sign, mark, is_mark, digits_span here isDigit,
      scanFraction_spells _, signAt, stops, ?_, List.append_assoc ..⟩⟩
    rw [← exponent_append, ← (scanFraction_reads _).1, spot.span_append]
  · rename_i kept places ended found
    split at scanned
    · rename_i letter
      cases scanned
      obtain ⟨whole, fraction, exponent, numberAt, same, kept_eq⟩ :=
        numberAt_of_scanned here isDigit found
      obtain ⟨first, begins, starts⟩ := (Option.any_eq_true ..).mp letter
      obtain ⟨tail, here⟩ := List.head?_eq_some_iff.mp begins
      have letters := ended.span_append isNamePart
      rw [← letters] at numberAt same
      refine ⟨_, rfl, .inr ⟨whole, fraction, exponent, _, numberAt, isWord_span here starts,
        word_ends ended, same, ?_⟩⟩
      rw [kept_eq]
    · cases scanned

theorem scanNumber_of_open {spot : Spot} {kept rest : List Char}
    (ends : OpenExponent spot.rest kept rest) :
    ∃ offset, scanNumber spot =
      (.error ⟨.malformedNumber (String.ofList kept), spot.offset⟩, ⟨offset, rest⟩) := by
  obtain ⟨whole, fraction, sign, mark, is_mark, digits, spells, signAt, stops, here, rfl⟩ := ends
  have no_digit := (exponentMark is_mark).2.1
  have fractionAt : FractionAt fraction (mark :: (sign ++ rest)) := by
    rcases spells with rfl | ⟨places, places_digits, rfl⟩
    · refine .inl ⟨rfl, fun place more same => ?_⟩
      obtain ⟨rfl, -⟩ := List.cons.inj same
      exact absurd is_mark (by decide)
    · exact .inr ⟨places, places_digits, rfl, by simpa using no_digit⟩
  have whole_stops :
      ∀ next ∈ (fraction ++ mark :: (sign ++ rest)).head?, next.isDigit = false := by
    rcases spells with rfl | ⟨places, -, rfl⟩
    · simpa using no_digit
    · simp
  obtain ⟨whole_read, fraction_read⟩ := scanFraction_of_parts here digits whole_stops fractionAt
  have exponent_here : (⟨spot.offset + byteLength (whole ++ fraction), mark :: (sign ++ rest)⟩ :
      Spot).rest = mark :: (sign ++ rest) := rfl
  have exponent_read := scanExponent_of_open is_mark signAt stops exponent_here
  simp only [scanNumber, whole_read, fraction_read, exponent_read, List.append_assoc]
  exact ⟨_, rfl⟩

theorem scanNumber_of_lettered {spot : Spot} {kept rest : List Char}
    (ends : LetteredNumber spot.rest kept rest) :
    ∃ offset, scanNumber spot =
      (.error ⟨.malformedNumber (String.ofList kept), spot.offset⟩, ⟨offset, rest⟩) := by
  obtain ⟨whole, fraction, exponent, letters, numberAt, word, stops, here, rfl⟩ := ends
  have letter : (letters ++ rest).head?.any isNameStart = true := by
    obtain ⟨first, parts, rfl, starts, -⟩ := word
    exact isNameStart_iff.mpr starts
  obtain ⟨whole_read, fraction_read⟩ :=
    scanFraction_of_parts here numberAt.digits numberAt.stops numberAt.fractionAt
  have exponent_here :
      (⟨spot.offset + byteLength (whole ++ fraction), exponent ++ (letters ++ rest)⟩ :
        Spot).rest = exponent ++ (letters ++ rest) := rfl
  obtain ⟨mark, places, kept_eq, exponent_read⟩ :=
    scanExponent_of_exponentAt exponent_here numberAt.exponentAt
  have letters_here (offset : Nat) :
      (⟨offset, letters ++ rest⟩ : Spot).rest = letters ++ rest := rfl
  have kept_here : (whole ++ (fraction ++ exponent)).map smallMark =
      whole ++ fraction ++ mark ++ places := by
    rw [List.map_append, List.map_append, map_smallMark_digits numberAt.digits,
      numberAt.fraction_kept, ← kept_eq, List.append_assoc, List.append_assoc]
  simp only [scanNumber, whole_read, fraction_read, exponent_read, letter, if_true,
    span_of_word word (letters_here _) stops, kept_here]
  exact ⟨_, rfl⟩

/-! ### One reading -/

/-- **The errors of one reading.** No token can be read exactly where the rest of the text is
unreadable. -/
theorem scan_error_iff {spot : Spot} {error : ParseError} {rest : List Char} :
    (scan spot).1 = .error error ∧ (scan spot).2.rest = rest ↔
      Unreadable spot.offset spot.rest error rest := by
  constructor
  · rintro ⟨failed, rfl⟩
    generalize read : scan spot = outcome at failed ⊢
    obtain ⟨outcome, after⟩ := outcome
    cases failed
    unfold scan at read
    split at read
    · cases read
    · rename_i first more here
      split at read
      · rename_i digit
        obtain ⟨kept, rfl, malformed⟩ := scanNumber_fails here digit read
        exact .number malformed
      · split at read
        · cases read
        · split at read
          · rename_i quote
            have is_quote : first ∈ ['"', '\''] := by simpa using quote
            rw [here]
            obtain ⟨body, content, quotes, ended | bad⟩ := scanContent_fails read
            · obtain ⟨ending, is_ending, rfl, rfl, rest⟩ := ended
              rw [rest]
              exact .text is_quote quotes is_ending
            · obtain ⟨escape, tail, rfl, unknown, rfl, rest⟩ := bad
              rw [rest, Nat.add_assoc, ← byteLength_cons]
              exact .escape is_quote quotes unknown
          · split at read
            · cases read
            · rename_i no_digit no_letter no_quote _ no_mark
              cases read
              rw [here]
              exact .character (not_begins_iff.mpr ⟨eq_false_of_ne_true no_digit,
                eq_false_of_ne_true no_letter, eq_false_of_ne_true no_quote, no_mark⟩)
  · intro unreadable
    obtain ⟨offset, text⟩ := spot
    cases unreadable with
    | character other =>
      obtain ⟨no_digit, no_letter, no_quote, no_mark⟩ := not_begins_iff.mp other
      simp only [scan, no_digit, no_letter, no_quote, no_mark, Bool.false_eq_true, if_false,
        and_self]
    | text is_quote quotes is_ending =>
      obtain ⟨no_digit, no_letter, quote⟩ := quote_begins is_quote
      simp only [scan, no_digit, no_letter, quote, Bool.false_eq_true, if_false, if_true]
      rw [scanContent_unterminated is_quote quotes is_ending]
      exact ⟨rfl, rfl⟩
    | escape is_quote quotes unknown =>
      obtain ⟨no_digit, no_letter, quote⟩ := quote_begins is_quote
      simp only [scan, no_digit, no_letter, quote, Bool.false_eq_true, if_false, if_true]
      rw [scanContent_unknown is_quote quotes unknown, byteLength_cons, Nat.add_assoc]
      exact ⟨rfl, rfl⟩
    | number malformed =>
      obtain ⟨digit, more, rfl, isDigit⟩ : ∃ digit more, text = digit :: more ∧
          digit.isDigit = true := by
        rcases malformed with ends | ends
        · obtain ⟨_, _, _, _, -, digits, -, -, -, rfl, -⟩ := ends
          exact digits.head _
        · obtain ⟨_, _, _, _, numberAt, -, -, rfl, -⟩ := ends
          exact numberAt.digits.head _
      have read : ∃ stop, scanNumber ⟨offset, digit :: more⟩ = _ :=
        malformed.elim scanNumber_of_open scanNumber_of_lettered
      obtain ⟨stop, read⟩ := read
      simp only [scan, isDigit, if_true, read, and_self]

/-- Where a token begins, there is neither a blank nor a comment that is passed over. -/
theorem pastTrivia_stops (comments inComment : Bool) (offset : Nat) (text : List Char) :
    ∀ first ∈ (pastTrivia comments inComment offset text).rest.head?,
      Text.isBlank first = false ∧ (comments = true → first ≠ '#') := by
  fun_induction pastTrivia comments inComment offset text with
  | case1 => simp
  | case2 | case3 | case4 => assumption
  | case5 inComment offset character rest outside solid begins =>
    rintro first ⟨⟩
    refine ⟨eq_false_of_ne_true solid, fun passed same => begins ?_⟩
    rw [passed, same]
    rfl

theorem tokenSpot_stops (scanner : Scanner) :
    ∀ first ∈ scanner.tokenSpot.rest.head?,
      Text.isBlank first = false ∧ (scanner.comments = true → first ≠ '#') :=
  pastTrivia_stops scanner.comments false scanner.spot.offset scanner.spot.rest

/-! ### Errors by their cause -/

section Causes

variable {offset : Nat} {text : List Char} {position : Nat}

theorem unreadable_character_iff {character : Char} :
    (∃ rest, Unreadable offset text ⟨.unexpectedCharacter character, position⟩ rest) ↔
      position = offset ∧ ∃ more, text = character :: more ∧ ¬ Begins character more := by
  constructor
  · rintro ⟨rest, unreadable⟩
    cases unreadable with
    | character other => exact ⟨rfl, _, rfl, other⟩
  · rintro ⟨rfl, more, rfl, other⟩
    exact ⟨_, .character other⟩

theorem unreadable_text_iff :
    (∃ rest, Unreadable offset text ⟨.unterminatedText, position⟩ rest) ↔
      position = offset ∧ ∃ quote ∈ ['"', '\''], ∃ body content, Quotes quote body content ∧
        ∃ ending ∈ [[], ['\\']], text = quote :: (body ++ ending) := by
  constructor
  · rintro ⟨rest, unreadable⟩
    cases unreadable with
    | text is_quote quotes is_ending =>
      exact ⟨rfl, _, is_quote, _, _, quotes, _, is_ending, rfl⟩
  · rintro ⟨rfl, quote, is_quote, body, content, quotes, ending, is_ending, rfl⟩
    exact ⟨_, .text is_quote quotes is_ending⟩

theorem unreadable_escape_iff {escape : Char} :
    (∃ rest, Unreadable offset text ⟨.invalidEscape escape, position⟩ rest) ↔
      ∃ quote ∈ ['"', '\''], ∃ body content more, Quotes quote body content ∧
        text = quote :: (body ++ '\\' :: escape :: more) ∧
        position = offset + byteLength (quote :: body) ∧
        escape ∉ ['n', 't', 'r', '"', '\'', '\\'] := by
  constructor
  · rintro ⟨rest, unreadable⟩
    cases unreadable with
    | escape is_quote quotes unknown =>
      exact ⟨_, is_quote, _, _, _, quotes, rfl, rfl, unknown⟩
  · rintro ⟨quote, is_quote, body, content, more, quotes, rfl, rfl, unknown⟩
    exact ⟨_, .escape is_quote quotes unknown⟩

theorem unreadable_number_iff {lexeme : String} :
    (∃ rest, Unreadable offset text ⟨.malformedNumber lexeme, position⟩ rest) ↔
      position = offset ∧ ∃ after, OpenExponent text lexeme.toList after ∨
        LetteredNumber text lexeme.toList after := by
  constructor
  · rintro ⟨rest, unreadable⟩
    cases unreadable with
    | number malformed =>
      rw [String.toList_ofList]
      exact ⟨rfl, _, malformed⟩
  · rintro ⟨rfl, after, malformed⟩
    rw [← String.ofList_toList (s := lexeme)]
    exact ⟨_, .number malformed⟩

end Causes

/-- There is an error exactly where the rest of the text is unreadable. -/
theorem next_error_iff {scanner : Scanner} {error : ParseError} :
    scanner.next.1.outcome = .error error ↔
      ∃ rest, Unreadable scanner.next.1.start scanner.tokenSpot.rest error rest := by
  constructor
  · intro failed
    exact ⟨_, scan_error_iff.mp ⟨failed, rfl⟩⟩
  · rintro ⟨rest, unreadable⟩
    exact (scan_error_iff.mpr unreadable).1

/-- After a backslash that begins no escape, reading goes on with the character after it. -/
theorem next_of_escape {scanner : Scanner} {escape : Char} {position : Nat}
    (failed : scanner.next.1.outcome = .error ⟨.invalidEscape escape, position⟩) :
    scanner.next.2.spot.offset = position + 1 ∧
      scanner.next.2.spot.rest.head? = some escape := by
  have unreadable : Unreadable scanner.tokenSpot.offset scanner.tokenSpot.rest _
      scanner.next.2.spot.rest := scan_error_iff.mp ⟨failed, rfl⟩
  have leads : scanner.tokenSpot.LeadsTo scanner.next.2.spot := scan_leads scanner.tokenSpot
  generalize here : scanner.tokenSpot.rest = text at unreadable
  generalize left : scanner.next.2.spot.rest = rest at unreadable ⊢
  cases unreadable with
  | @escape quote _ body content rest is_quote quotes unknown =>
    have passed : scanner.tokenSpot.rest =
        quote :: (body ++ ['\\']) ++ scanner.next.2.spot.rest := by
      rw [here, left, List.cons_append, List.append_assoc, List.singleton_append]
    refine ⟨?_, rfl⟩
    rw [leads.offset_eq passed, ← List.cons_append, byteLength_append, ← Nat.add_assoc]
    rfl

/-! ### Any number of readings -/

/-- **Errors are raised exactly where they apply.** After any number of readings, errors among them,
trivia are passed over and the next reading begins at the offset after them. It is an error exactly
if the rest of the text is unreadable from there on: a character that begins no token is met where
the reading begins; a quoted text goes on to the end of the input, perhaps with one backslash at the
end; a quoted text has a backslash before a character that no escape stands for, and reading goes on
with that character; a number has an exponent without digits, or a letter after it. -/
theorem ofText_errors (text : String) (comments : Bool) (count : Nat) :
    let scanner := (ofText text comments).after count
    let read := (ofText text comments).reading count
    let left := ((ofText text comments).after (count + 1)).spot
    ∃ passed trivia rest, text.toList = passed ++ (trivia ++ rest) ∧
      scanner.spot = ⟨byteLength passed, trivia ++ rest⟩ ∧ Trivia comments rest trivia ∧
      (∀ first ∈ rest.head?, Text.isBlank first = false ∧ (comments = true → first ≠ '#')) ∧
      read.start = byteLength (passed ++ trivia) ∧
      (∀ character position,
        read.outcome = .error ⟨.unexpectedCharacter character, position⟩ ↔
          position = read.start ∧ ∃ more, rest = character :: more ∧ ¬ Begins character more) ∧
      (∀ position, read.outcome = .error ⟨.unterminatedText, position⟩ ↔
        position = read.start ∧ ∃ quote ∈ ['"', '\''], ∃ body content,
          Quotes quote body content ∧ ∃ ending ∈ [[], ['\\']], rest = quote :: (body ++ ending)) ∧
      (∀ escape position, read.outcome = .error ⟨.invalidEscape escape, position⟩ ↔
        ∃ quote ∈ ['"', '\''], ∃ body content more, Quotes quote body content ∧
          rest = quote :: (body ++ '\\' :: escape :: more) ∧
          position = read.start + byteLength (quote :: body) ∧
          escape ∉ ['n', 't', 'r', '"', '\'', '\\']) ∧
      (∀ lexeme position, read.outcome = .error ⟨.malformedNumber lexeme, position⟩ ↔
        position = read.start ∧ ∃ after, OpenExponent rest lexeme.toList after ∨
          LetteredNumber rest lexeme.toList after) ∧
      (∀ error, read.outcome = .error error → Unreadable read.start rest error left.rest) ∧
      ∀ escape position, read.outcome = .error ⟨.invalidEscape escape, position⟩ →
        left.offset = position + 1 ∧ left.rest.head? = some escape := by
  intro scanner read left
  have start : (ofText text comments).spot.At text.toList 0 := Spot.at_start text
  obtain ⟨position, here, -⟩ := after_at start count
  obtain ⟨trivia, same, moved, between⟩ := scanner.tokenSpot_passes
  have flag : scanner.comments = comments := after_comments ..
  refine ⟨text.toList.take position, trivia, scanner.tokenSpot.rest, ?_, ?_, flag ▸ between, ?_, ?_,
    fun character position => next_error_iff.trans unreadable_character_iff,
    fun position => next_error_iff.trans unreadable_text_iff,
    fun escape position => next_error_iff.trans unreadable_escape_iff,
    fun lexeme position => next_error_iff.trans unreadable_number_iff,
    fun error failed => scan_error_iff.mp ⟨failed, rfl⟩,
    fun escape position => next_of_escape⟩
  · rw [← same, here.rest_eq, List.take_append_drop]
  · rw [← same, ← here.offset_eq]
  · exact flag ▸ scanner.tokenSpot_stops
  · rw [byteLength_append, ← here.offset_eq]
    exact moved

/-- The position of an escape counts bytes, and the number after it is read as it stands. -/
example :
    ((ofText "'é\\1e+" true).reading 0).outcome = .error ⟨.invalidEscape '1', 3⟩ ∧
      ((ofText "'é\\1e+" true).reading 1).outcome = .error ⟨.malformedNumber "1e+", 4⟩ := by
  exact ⟨by rfl, by rfl⟩

end Scanner

end Formula
