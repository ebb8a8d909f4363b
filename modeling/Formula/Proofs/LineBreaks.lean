/-
**Texts line by line.**

A line feed goes on no token and ends every comment, so a text can be cut there: if what stands
before the line feed can be read to its end, it has the same tokens with anything after the line
feed, and what stands after it is read as if it were a text of its own, further on by the bytes
before it.

* `Spelled.tape_line`: the readings of a text that is spelled out, with a line feed and more after
  it.
* `Lexing.ofText_line`: the tokens of a text that is cut at a line feed.
-/

import Formula.Proofs.Scanner.Shifted
import Formula.Proofs.Written.Between

namespace Formula

open Scanner

variable {comments : Bool}

/-- A tape with the readings of tokens before it. -/
def Tape.preceded (tape : Tape) (tokens : List Located) : Tape :=
  ⟨tokens.map (fun located => ⟨located.start, .ok located.token⟩) ++ tape.items, tape.last⟩

/-! ### Before a line feed -/

/-- A line feed goes on nothing. -/
theorem Clear.line (rest : List Char) : Clear ('\n' :: rest) :=
  .of_isBlank (by decide)

/-- What is trivia up to the end of a text is trivia up to a line feed. -/
theorem Trivia.line {trivia : List Char} (between : Trivia comments [] trivia)
    (rest : List Char) : Trivia comments ('\n' :: rest) trivia := by
  induction between with
  | nothing => exact .nothing
  | blank isBlank more step => exact .blank isBlank step
  | @comment body run passed inLine ends more step =>
    refine .comment passed inLine ?_ step
    cases run with
    | nil =>
      rintro next ⟨⟩
      rfl
    | cons next run =>
      rintro _ ⟨⟩
      exact ends next rfl

namespace Scanner

/-- Scanners that read the same next, and go on alike, make all readings alike. -/
theorem tape_of_next {first second : Scanner} (same : first.next = second.next) :
    first.tape = second.tape := by
  cases kind : second.next.1.isLast with
  | true => rw [tape_of_last kind, tape_of_last (by rwa [same]), same]
  | false =>
    rw [tape_of_more kind, @tape_of_more first (by rwa [same]), same]

/-- Before a line feed that trivia lead up to, nothing is read that is not read after it. -/
theorem tape_of_line {offset : Nat} {trivia : List Char} (between : Trivia comments [] trivia)
    (rest : List Char) :
    tape ⟨⟨offset, trivia ++ '\n' :: rest⟩, comments⟩ =
      tape ⟨⟨offset + byteLength trivia + 1, rest⟩, comments⟩ := by
  have passed : pastTrivia comments false offset (trivia ++ '\n' :: rest) =
      pastTrivia comments false (offset + byteLength trivia + 1) rest := by
    rw [pastTrivia_append (between.line rest), pastTrivia, if_neg Bool.false_ne_true,
      if_pos (by decide)]
    rfl
  apply tape_of_next
  unfold next tokenSpot
  rw [passed]

end Scanner

/-! ### Cutting at a line feed -/

/-- A text that is spelled out has its tokens before a line feed, whatever comes after it. -/
theorem Spelled.tape_line {offset : Nat} {text : List Char} {tokens : List Located}
    (spelled : Spelled comments offset text tokens) (rest : List Char) :
    tape ⟨⟨offset, text ++ '\n' :: rest⟩, comments⟩ =
      (tape ⟨⟨offset + byteLength text + 1, rest⟩, comments⟩).preceded tokens := by
  induction spelled with
  | done between => exact tape_of_line between rest
  | @token offset trivia spelling back token tokens between spells ends more step =>
    have ends_there : token.EndsAt spelling (back ++ '\n' :: rest) := by
      rw [← List.append_nil back] at ends
      exact (Clear.line rest).endsAt_append spells ends
    have read := next_of_spelledBy offset (between.before_any spells _) spells ends_there
    have not_last : (Scanned.mk (offset + byteLength trivia) (.ok token)).isLast = false := by
      cases token <;> first | rfl | exact spells.elim
    have length : offset + byteLength (trivia ++ (spelling ++ back)) =
        offset + byteLength trivia + byteLength spelling + byteLength back := by
      simp only [byteLength_append, Nat.add_assoc]
    rw [List.append_assoc, List.append_assoc, length, tape_of_more (by rwa [read]), read, step]
    rfl

theorem Spelled.ne_endOfInput {offset : Nat} {text : List Char} {tokens : List Located}
    (spelled : Spelled comments offset text tokens) :
    ∀ located ∈ tokens, located.token ≠ .endOfInput := by
  induction spelled with
  | done => exact List.forall_mem_nil _
  | token _ spells _ _ step =>
    refine List.forall_mem_cons.mpr ⟨?_, step⟩
    rintro rfl
    exact spells

/-- Tokens whose readings are before a tape are the first ones on it. -/
theorem Tape.lexing_preceded {tape : Tape} {tokens : List Located}
    (more : ∀ located ∈ tokens, located.token ≠ .endOfInput) :
    (tape.preceded tokens).lexing = ⟨tokens ++ tape.lexing.tokens, tape.lexing.ending⟩ := by
  induction tokens with
  | nil => rfl
  | cons located tokens step =>
    obtain ⟨here, later⟩ := List.forall_mem_cons.mp more
    have ahead : (tape.preceded (located :: tokens)).lexing =
        .add ⟨located.start, .ok located.token⟩ (tape.preceded tokens).lexing := rfl
    rw [ahead, step later, Lexing.add_token here]
    rfl

/-- **A text can be cut at a line feed.** If what stands before the line feed can be read to its
end, even in a comment or in a token that the next character could go on, then its tokens come
first, where they are; and all readings of what stands after the line feed follow, tokens, errors
and the end of the input, further on by the bytes up to the line feed and the line feed. -/
theorem Lexing.ofText_line (u v : String) (comments : Bool)
    (reaches : (ofText u comments).ending.isOk = true) :
    let distance := u.utf8ByteSize + 1
    let after := (ofText v comments).shifted distance
    ofText (u ++ "\n" ++ v) comments = ⟨(ofText u comments).tokens ++ after.tokens, after.ending⟩ ∧
      Tape.ofText (u ++ "\n" ++ v) comments =
        ((Tape.ofText v comments).shifted distance).preceded (ofText u comments).tokens := by
  intro distance after
  have spelled : Spelled comments 0 u.toList (ofText u comments).tokens :=
    Spells.spelled ⟨rfl, reaches⟩
  have text : (u ++ "\n" ++ v).toList = u.toList ++ '\n' :: v.toList := by simp
  have place : (⟨⟨0 + byteLength u.toList + 1, v.toList⟩, comments⟩ : Scanner) =
      (Scanner.ofText v comments).shifted distance := by
    rw [byteLength_toList, Nat.add_assoc]
    rfl
  have tapes : Tape.ofText (u ++ "\n" ++ v) comments =
      ((Tape.ofText v comments).shifted distance).preceded (ofText u comments).tokens := by
    unfold Tape.ofText
    rw [← Scanner.tape_shifted, ← place, ← spelled.tape_line]
    unfold Scanner.ofText Spot.start
    rw [text]
  refine ⟨?_, tapes⟩
  show (Tape.ofText (u ++ "\n" ++ v) comments).lexing = _
  rw [tapes, Tape.lexing_preceded spelled.ne_endOfInput, Tape.lexing_shifted]
  rfl

/-- A mark is not completed across a line feed, nor is a comment gone on: what is after it is read
from its beginning. -/
theorem Lexing.ofText_line_open :
    (ofText "'é' < # <\n= 1" true).ending = .error ⟨.unexpectedCharacter '=', 11⟩ ∧
      (ofText "'é' < # <\n= 1" true).tokens = [⟨0, .text "é"⟩, ⟨5, .operator .less⟩] := by
  have cut := (ofText_line "'é' < # <" "= 1" true (by decide +kernel)).1
  have before : (ofText "'é' < # <" true).tokens =
      [⟨0, .text "é"⟩, ⟨5, .operator .less⟩] := by decide +kernel
  have after : ofText "= 1" true = ⟨[], .error ⟨.unexpectedCharacter '=', 0⟩⟩ :=
    Scanner.lexing_tape (.ofText "= 1" true)
  rw [before, after] at cut
  exact ⟨congrArg ending cut, congrArg tokens cut⟩

end Formula
