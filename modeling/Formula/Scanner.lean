/-
**Reading tokens off a text.**

A scanner stands at a spot of a text. `Scanner.next` passes over blanks and comments and reads the
longest token there, or says why none can be read, and returns the scanner that stands where the
reading stopped: after a token, on the character that follows the backslash of a bad escape, before
a character that begins nothing. So reading goes on after an error as after a token.

* `Scanner.scan_leads`: what is read, token or not, is passed over.
* `Scanner.next_rest_lt`: a reading that is not the last one passes over a character.
-/

import Formula.Error
import Formula.Spot
import Formula.Text.Blank

namespace Formula

/-- Reads tokens off a text, from a spot on; comments are passed over or not. -/
structure Scanner where
  spot : Spot
  comments : Bool
  deriving DecidableEq, Inhabited

/-- What was read at a spot: a token, or the reason why none can be read, with the offset at which
the reading began. -/
structure Scanned where
  start : Nat
  outcome : Except ParseError Token

namespace Scanner

/-! ### Blanks and comments -/

/-- The spot after the blanks, and the comments where they are passed over, that begin at an offset.
A comment goes on up to the next line feed, which is a blank itself. -/
def pastTrivia (comments inComment : Bool) (offset : Nat) : List Char → Spot
  | [] => ⟨offset, []⟩
  | character :: rest =>
    if inComment then
      pastTrivia comments (character != '\n') (offset + character.utf8Size) rest
    else if Text.isBlank character then
      pastTrivia comments false (offset + character.utf8Size) rest
    else if comments && character == '#' then
      pastTrivia comments true (offset + character.utf8Size) rest
    else
      ⟨offset, character :: rest⟩

/-! ### Texts -/

/-- The character that an escape stands for. -/
def unescape : Char → Option Char
  | 'n' => some '\n'
  | 't' => some '\t'
  | 'r' => some '\r'
  | '"' => some '"'
  | '\'' => some '\''
  | '\\' => some '\\'
  | _ => none

/-- Reads the content of a text up to the quote that closes it, given the offset of the quote that
opened it, the offset reached and, backwards, the content so far. -/
def scanContent (opening : Nat) (quote : Char) (offset : Nat) (content : List Char) :
    List Char → Except ParseError Token × Spot
  | [] => (.error ⟨.unterminatedText, opening⟩, ⟨offset, []⟩)
  | character :: rest =>
    if character = quote then
      (.ok (.text (String.ofList content.reverse)), ⟨offset + character.utf8Size, rest⟩)
    else if character = '\\' then
      match rest with
      | [] => (.error ⟨.unterminatedText, opening⟩, ⟨offset + character.utf8Size, []⟩)
      | escape :: rest =>
        match unescape escape with
        | some meant =>
          scanContent opening quote (offset + character.utf8Size + escape.utf8Size)
            (meant :: content) rest
        | none =>
          (.error ⟨.invalidEscape escape, offset⟩, ⟨offset + character.utf8Size, escape :: rest⟩)
    else
      scanContent opening quote (offset + character.utf8Size) (character :: content) rest

/-! ### Numbers and names -/

/-- Holds of the characters that can begin a name. -/
def isNameStart (character : Char) : Bool :=
  character.isAlpha || character == '_'

/-- Holds of the characters that can go on a name. -/
def isNamePart (character : Char) : Bool :=
  character.isAlphanum || character == '_'

/-- The fraction of a number: a point and the digits after it, if there is a digit. -/
def scanFraction (spot : Spot) : List Char × Spot :=
  match spot.rest with
  | '.' :: digit :: _ =>
    if digit.isDigit then
      let digits := (spot.skip 1).span Char.isDigit
      ('.' :: digits.1, digits.2)
    else ([], spot)
  | _ => ([], spot)

/-- The sign of an exponent, if there is one. -/
def scanSign (spot : Spot) : List Char × Spot :=
  match spot.rest with
  | '+' :: _ => (['+'], spot.skip 1)
  | '-' :: _ => (['-'], spot.skip 1)
  | _ => ([], spot)

/-- The exponent of a number, its letter always written small, if there is one; `none` after a
letter and sign that no digit follows. -/
def scanExponent (spot : Spot) : List Char × Option (List Char) × Spot :=
  match spot.rest with
  | letter :: _ =>
    if letter == 'e' || letter == 'E' then
      let sign := scanSign (spot.skip 1)
      let digits := sign.2.span Char.isDigit
      ('e' :: sign.1, if digits.1.isEmpty then none else some digits.1, digits.2)
    else ([], some [], spot)
  | [] => ([], some [], spot)

/-- Reads a number. Its exponent must have a digit, and no letter may follow it. -/
def scanNumber (spot : Spot) : Except ParseError Token × Spot :=
  let whole := spot.span Char.isDigit
  let fraction := scanFraction whole.2
  match scanExponent fraction.2 with
  | (mark, none, stopped) =>
    (.error ⟨.malformedNumber (String.ofList (whole.1 ++ fraction.1 ++ mark)), spot.offset⟩,
      stopped)
  | (mark, some digits, after) =>
    let lexeme := whole.1 ++ fraction.1 ++ mark ++ digits
    if after.rest.head?.any isNameStart then
      let letters := after.span isNamePart
      (.error ⟨.malformedNumber (String.ofList (lexeme ++ letters.1)), spot.offset⟩, letters.2)
    else (.ok (.number (String.ofList lexeme)), after)

/-- Reads a word. -/
def scanWord (spot : Spot) : Except ParseError Token × Spot :=
  let letters := spot.span isNamePart
  (.ok (.ofWord (String.ofList letters.1)), letters.2)

/-! ### Marks -/

/-- The mark at the beginning of a text and the number of its characters; of two marks that begin
alike the longer one. -/
def mark? : List Char → Option (Token × Nat)
  | '<' :: '=' :: _ => some (.operator .lessEqual, 2)
  | '>' :: '=' :: _ => some (.operator .greaterEqual, 2)
  | '=' :: '=' :: _ => some (.operator .equal, 2)
  | '!' :: '=' :: _ => some (.operator .notEqual, 2)
  | '<' :: _ => some (.operator .less, 1)
  | '>' :: _ => some (.operator .greater, 1)
  | '+' :: _ => some (.operator .plus, 1)
  | '-' :: _ => some (.operator .minus, 1)
  | '*' :: _ => some (.operator .times, 1)
  | '/' :: _ => some (.operator .divide, 1)
  | '%' :: _ => some (.operator .remainder, 1)
  | '~' :: _ => some (.operator .complement, 1)
  | '|' :: _ => some (.operator .bitOr, 1)
  | '&' :: _ => some (.operator .bitAnd, 1)
  | '(' :: _ => some (.openParen, 1)
  | ')' :: _ => some (.closeParen, 1)
  | ',' :: _ => some (.comma, 1)
  | '.' :: _ => some (.dot, 1)
  | _ => none

/-! ### One reading -/

/-- Reads the token at a spot. -/
def scan (spot : Spot) : Except ParseError Token × Spot :=
  match spot.rest with
  | [] => (.ok .endOfInput, spot)
  | character :: rest =>
    if character.isDigit then scanNumber spot
    else if isNameStart character then scanWord spot
    else if character == '"' || character == '\'' then
      scanContent spot.offset character (spot.offset + character.utf8Size) [] rest
    else
      match mark? (character :: rest) with
      | some (token, width) => (.ok token, spot.skip width)
      | none => (.error ⟨.unexpectedCharacter character, spot.offset⟩, spot)

/-- A scanner at the beginning of a text. -/
def ofText (text : String) (comments : Bool) : Scanner :=
  ⟨.start text, comments⟩

/-- The spot at which the next token begins. -/
def tokenSpot (scanner : Scanner) : Spot :=
  pastTrivia scanner.comments false scanner.spot.offset scanner.spot.rest

/-- Reads the next token. -/
def next (scanner : Scanner) : Scanned × Scanner :=
  let spot := scanner.tokenSpot
  let read := scan spot
  (⟨spot.offset, read.1⟩, ⟨read.2, scanner.comments⟩)

end Scanner

/-- Holds of the readings that every later reading repeats: the end of the input, and a character
that begins no token, which is never passed over. -/
def Scanned.isLast (scanned : Scanned) : Bool :=
  match scanned.outcome with
  | .ok .endOfInput => true
  | .error ⟨.unexpectedCharacter _, _⟩ => true
  | _ => false

namespace Scanner

/-! ### Progress -/

theorem pastTrivia_leads (comments inComment : Bool) (offset : Nat) (text : List Char) :
    (⟨offset, text⟩ : Spot).LeadsTo (pastTrivia comments inComment offset text) := by
  induction text generalizing inComment offset with
  | nil => exact .refl _
  | cons character rest step =>
    rw [pastTrivia]
    repeat' split
    all_goals first | exact .refl _ | exact (step ..).cons

theorem scanContent_leads (opening : Nat) (quote : Char) (offset : Nat)
    (content text : List Char) :
    (⟨offset, text⟩ : Spot).LeadsTo (scanContent opening quote offset content text).2 := by
  fun_induction scanContent opening quote offset content text with
  | case1 => exact .refl _
  | case2 | case3 | case5 => exact (Spot.LeadsTo.refl _).cons
  | case4 offset content escape rest meant found inside step => exact step.cons.cons
  | case6 offset content character rest inside unescaped step => exact step.cons

theorem scanFraction_leads (spot : Spot) : spot.LeadsTo (scanFraction spot).2 := by
  unfold scanFraction
  repeat' split
  · exact (Spot.LeadsTo.skip spot 1).trans (.span ..)
  all_goals exact .refl _

theorem scanSign_leads (spot : Spot) : spot.LeadsTo (scanSign spot).2 := by
  unfold scanSign
  split
  · exact .skip ..
  · exact .skip ..
  · exact .refl _

theorem scanExponent_leads (spot : Spot) : spot.LeadsTo (scanExponent spot).2.2 := by
  unfold scanExponent
  repeat' split
  · exact ((Spot.LeadsTo.skip spot 1).trans (scanSign_leads _)).trans (.span ..)
  all_goals exact .refl _

/-- A number goes on at least over its first run of digits. -/
theorem scanNumber_leads (spot : Spot) :
    (spot.span Char.isDigit).2.LeadsTo (scanNumber spot).2 := by
  have exponent := (scanFraction_leads (spot.span Char.isDigit).2).trans (scanExponent_leads _)
  simp only [scanNumber]
  split
  · rename_i found
    rw [found] at exponent
    exact exponent
  · rename_i found
    rw [found] at exponent
    split
    · exact exponent.trans (.span ..)
    · exact exponent

/-- What is read, token or not, is passed over. -/
theorem scan_leads (spot : Spot) : spot.LeadsTo (scan spot).2 := by
  unfold scan
  split
  · exact .refl _
  · rename_i character rest here
    repeat' split
    · exact (Spot.LeadsTo.span ..).trans (scanNumber_leads spot)
    · exact .span ..
    · obtain ⟨offset, text⟩ := spot
      cases here
      exact (scanContent_leads ..).cons
    · exact .skip ..
    · exact .refl _

theorem tokenSpot_leads (scanner : Scanner) : scanner.spot.LeadsTo scanner.tokenSpot :=
  pastTrivia_leads ..

theorem mark?_width_pos {text : List Char} {token : Token} {width : Nat}
    (found : mark? text = some (token, width)) : 0 < width := by
  unfold mark? at found
  split at found <;> cases found <;> decide

/-- A reading that is not the last one passes over a character. -/
theorem scan_length_lt (spot : Spot) {outcome : Except ParseError Token} {after : Spot}
    (read : scan spot = (outcome, after)) (start : Nat)
    (more : (Scanned.mk start outcome).isLast = false) :
    after.rest.length < spot.rest.length := by
  unfold scan at read
  split at read
  · cases read
    simp [Scanned.isLast] at more
  · rename_i character rest here
    split at read
    · rename_i digit
      have shorter := Spot.span_length_lt here digit
      have passed := (scanNumber_leads spot).length_le
      rw [read] at passed
      exact Nat.lt_of_le_of_lt passed shorter
    · split at read
      · rename_i letter
        have part : isNamePart character = true := by
          grind [isNameStart, isNamePart, Char.isAlphanum]
        have shorter := Spot.span_length_lt here part
        cases read
        exact shorter
      · split at read
        · have passed := (scanContent_leads spot.offset character
            (spot.offset + character.utf8Size) [] rest).length_le
          rw [read] at passed
          rw [here]
          exact Nat.lt_succ_of_le passed
        · split at read
          · rename_i found
            cases read
            have := mark?_width_pos found
            simp only [Spot.skip, here, List.length_drop, List.length_cons]
            omega
          · cases read
            simp [Scanned.isLast] at more

/-- A reading that is not the last one leaves less of the text. -/
theorem next_rest_lt (scanner : Scanner) (more : scanner.next.1.isLast = false) :
    scanner.next.2.spot.rest.length < scanner.spot.rest.length :=
  Nat.lt_of_lt_of_le (scan_length_lt scanner.tokenSpot rfl _ more) scanner.tokenSpot_leads.length_le

end Scanner

end Formula
