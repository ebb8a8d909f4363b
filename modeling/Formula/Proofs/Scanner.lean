/-
**What every reading keeps.**

A reading passes over characters, and the byte at which the text ends stays where it is
(`Scanner.next_stop`). So the end of the input is read at the end of the text, and since every
number that is read is spelled as one, it has a value.

* `Lexing.ofText_ending`: the end of the input lies at the byte length of the text.
* `Cursor.ofText?_readable`: the numbers of a text can all be read.
-/

import Formula.Proofs.Lexing
import Formula.Proofs.Number

namespace Formula

/-! ### The end of the text -/

theorem byteLength_eq (characters : List Char) :
    byteLength characters = (String.ofList characters).utf8ByteSize := by
  induction characters with
  | nil => rfl
  | cons character rest step =>
    rw [byteLength_cons, step, String.ofList_cons, String.utf8ByteSize_append,
      String.utf8ByteSize_singleton]

theorem byteLength_toList (text : String) : byteLength text.toList = text.utf8ByteSize := by
  rw [byteLength_eq, String.ofList_toList]

namespace Spot

/-- The byte at which the text ends. -/
def stop (spot : Spot) : Nat :=
  spot.offset + byteLength spot.rest

theorem stop_start (text : String) : (start text).stop = text.utf8ByteSize := by
  rw [stop, start, byteLength_toList, Nat.zero_add]

/-- Passing over characters leaves the end of the text where it is. -/
theorem LeadsTo.stop_eq {spot after : Spot} (leads : spot.LeadsTo after) :
    after.stop = spot.stop := by
  obtain ⟨passed, same, offset⟩ := leads
  rw [stop, stop, same, offset, byteLength_append, Nat.add_assoc]

/-- The offset counts the characters that are passed over. -/
theorem LeadsTo.offset_eq {spot after : Spot} {passed : List Char} (leads : spot.LeadsTo after)
    (same : spot.rest = passed ++ after.rest) :
    after.offset = spot.offset + byteLength passed := by
  have stop_same := leads.stop_eq
  rw [stop, stop, same, byteLength_append] at stop_same
  omega

end Spot

namespace Scanner

/-- A reading leaves the end of the text where it is. -/
theorem next_stop (scanner : Scanner) : scanner.next.2.spot.stop = scanner.spot.stop :=
  (scanner.tokenSpot_leads.trans (scan_leads scanner.tokenSpot)).stop_eq

/-! ### Numbers -/

theorem digits_span {spot : Spot} {digit : Char} {rest : List Char}
    (here : spot.rest = digit :: rest) (isDigit : digit.isDigit = true) :
    Digits (spot.span Char.isDigit).1 := by
  refine ⟨?_, spot.span_all Char.isDigit⟩
  rw [Spot.span, here, List.takeWhile_cons_of_pos isDigit]
  exact List.cons_ne_nil _ _

theorem scanFraction_spells (spot : Spot) :
    (scanFraction spot).1 = [] ∨
      ∃ places, Digits places ∧ (scanFraction spot).1 = '.' :: places := by
  unfold scanFraction
  split
  · rename_i digit rest here
    split
    · rename_i isDigit
      have next : (spot.skip 1).rest = digit :: rest := by rw [Spot.skip, here]; rfl
      exact .inr ⟨_, digits_span next isDigit, rfl⟩
    · exact .inl rfl
  · exact .inl rfl

theorem scanSign_mem (spot : Spot) : (scanSign spot).1 ∈ [[], ['+'], ['-']] := by
  unfold scanSign
  split <;> simp

theorem scanExponent_spells {spot after : Spot} {mark digits : List Char}
    (scanned : scanExponent spot = (mark, some digits, after)) :
    mark ++ digits = [] ∨ ∃ sign places, sign ∈ [[], ['+'], ['-']] ∧ Digits places ∧
      mark ++ digits = 'e' :: (sign ++ places) := by
  unfold scanExponent at scanned
  split at scanned
  · split at scanned
    · rename_i letter rest here isMark
      have found := Spot.span_all (scanSign (spot.skip 1)).2 Char.isDigit
      simp only [Prod.mk.injEq] at scanned
      obtain ⟨rfl, digits_eq, -⟩ := scanned
      split at digits_eq
      · cases digits_eq
      · rename_i some_digit
        cases digits_eq
        refine .inr ⟨_, _, scanSign_mem _, ⟨?_, found⟩, rfl⟩
        simpa using some_digit
    · cases scanned
      exact .inl rfl
  · cases scanned
    exact .inl rfl

theorem scanNumber_spells {spot : Spot} {digit : Char} {rest : List Char}
    (here : spot.rest = digit :: rest) (isDigit : digit.isDigit = true) {token : Token}
    (scanned : (scanNumber spot).1 = .ok token) :
    ∃ lexeme, token = .number lexeme ∧ SpellsNumber lexeme.toList := by
  simp only [scanNumber] at scanned
  split at scanned
  · cases scanned
  · rename_i mark digits after found
    split at scanned
    · cases scanned
    · cases scanned
      exact ⟨_, rfl, (spot.span Char.isDigit).1, (scanFraction (spot.span Char.isDigit).2).1,
        mark ++ digits, by simp, digits_span here isDigit, scanFraction_spells _,
        scanExponent_spells found⟩

theorem scanContent_text {opening : Nat} {quote : Char} {offset : Nat} {content text : List Char}
    {token : Token} (scanned : (scanContent opening quote offset content text).1 = .ok token) :
    ∃ content, token = .text content := by
  fun_induction scanContent opening quote offset content text <;> grind

/-- What a token says of where it is read: the end of the input has nothing after it, and a number
is spelled as one. -/
def Tells (spot : Spot) : Token → Prop
  | .endOfInput => spot.rest = []
  | .number lexeme => SpellsNumber lexeme.toList
  | _ => True

theorem scan_tells {spot : Spot} {token : Token} (scanned : (scan spot).1 = .ok token) :
    Tells spot token := by
  unfold scan at scanned
  split at scanned
  · rename_i ended
    cases scanned
    exact ended
  · rename_i character rest here
    split at scanned
    · rename_i isDigit
      obtain ⟨lexeme, rfl, spells⟩ := scanNumber_spells here isDigit scanned
      exact spells
    · split at scanned
      · cases scanned
        unfold Token.ofWord
        split <;> trivial
      · split at scanned
        · obtain ⟨content, rfl⟩ := scanContent_text scanned
          trivial
        · split at scanned
          · rename_i found
            cases scanned
            unfold mark? at found
            split at found <;> cases found <;> trivial
          · cases scanned

end Scanner

/-- Holds of the tokens that have a value if they are numbers. -/
def Token.Readable : Token → Prop
  | .number lexeme => ∃ literal, Literal.ofLexeme? lexeme = some literal
  | _ => True

theorem Scanner.Tells.readable {spot : Spot} {token : Token} (tells : Tells spot token) :
    token.Readable := by
  cases token with
  | number lexeme => exact SpellsNumber.readable tells
  | _ => trivial

/-- The numbers of a text can all be read. -/
theorem Cursor.ofText?_readable {text : String} {options : Options} {cursor : Cursor}
    (found : ofText? text options = .ok cursor) : cursor.All Token.Readable := by
  obtain ⟨items, last⟩ := @Scanner.tape_all (fun _ => True)
    (fun scanned => ∀ token, scanned.outcome = .ok token → token.Readable)
    (fun _ _ => ⟨fun _ scanned => (Scanner.scan_tells scanned).readable, trivial⟩)
    (.ofText text options.comments) trivial
  have start : (before text options).All Token.Readable :=
    ⟨trivial, items, last⟩
  exact start.next (ofText?_eq text options ▸ found)

/-- The end of the input lies at the end of the text. -/
theorem Scanner.lexing_ending {scanner : Scanner} {stop : Nat}
    (ending : scanner.tape.lexing.ending = .ok stop) : stop = scanner.spot.stop := by
  induction scanner using tape_induction with
  | last scanner kind =>
    rw [lexing_tape] at ending
    obtain ⟨read, start⟩ := Lexing.ending_of_last kind ending
    have nothing : scanner.tokenSpot.rest = [] := scan_tells read
    rw [← start, ← scanner.tokenSpot_leads.stop_eq, Spot.stop, nothing]
    rfl
  | more scanner kind rest =>
    rw [lexing_tape] at ending
    exact (rest (Lexing.ending_of_more kind ending)).trans (next_stop scanner)

theorem Lexing.ofText_ending {text : String} {comments : Bool} {stop : Nat}
    (ending : (ofText text comments).ending = .ok stop) : stop = text.utf8ByteSize :=
  (Scanner.lexing_ending ending).trans (Spot.stop_start text)

end Formula
