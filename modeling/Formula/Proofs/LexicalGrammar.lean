/-
**The scanner reads exactly the lexical grammar.**

The tokens that a scanner yields, one reading after another up to the end of the input
(`Scanner.Yields`), are those that cut its text into trivia and spellings (`Spelled`): each token
that is read spells itself where it stands and does not go on, and wherever spellings that do not go
on stand one after another, they are what is read.

* `Scanner.ofText_yields_iff`: the lexical grammar of texts, with longest match.
* `Lexing.ofText_of_spelled`: so a text that is spelled out has its tokens.
* `Lexing.Spells.spelled`: and a text that reaches its end is spelled out by them.
-/

import Formula.Proofs.Scanner.Readings

namespace Formula

namespace Scanner

/-- Holds of the tokens that are read one after another, up to the end of the input. -/
def Yields : Scanner → List Located → Prop
  | scanner, [] => scanner.next.1.outcome = .ok .endOfInput
  | scanner, located :: tokens =>
    scanner.next.1 = ⟨located.start, .ok located.token⟩ ∧ located.token ≠ .endOfInput ∧
      scanner.next.2.Yields tokens

/-- Trivia, and nothing else, is passed over before a token. -/
theorem tokenSpot_passes (scanner : Scanner) :
    ∃ trivia, scanner.spot.rest = trivia ++ scanner.tokenSpot.rest ∧
      scanner.tokenSpot.offset = scanner.spot.offset + byteLength trivia ∧
        Trivia scanner.comments scanner.tokenSpot.rest trivia := by
  obtain ⟨⟨trivia, same, between⟩, -⟩ :=
    pastTrivia_passes scanner.comments scanner.spot.rest scanner.spot.offset
  exact ⟨trivia, same, scanner.tokenSpot_leads.offset_eq same, between⟩

theorem tokenSpot_of_trivia (offset : Nat) {comments : Bool} {trivia rest : List Char}
    (between : Trivia comments rest trivia)
    (stops : ∀ next ∈ rest.head?, Text.isBlank next = false ∧ next ≠ '#') :
    (⟨⟨offset, trivia ++ rest⟩, comments⟩ : Scanner).tokenSpot =
      ⟨offset + byteLength trivia, rest⟩ :=
  pastTrivia_of_trivia between stops offset

/-- What is yielded spells the text. -/
theorem Yields.spelled {scanner : Scanner} {tokens : List Located}
    (yields : scanner.Yields tokens) :
    Spelled scanner.comments scanner.spot.offset scanner.spot.rest tokens := by
  induction tokens generalizing scanner with
  | nil =>
    obtain ⟨trivia, same, -, between⟩ := scanner.tokenSpot_passes
    have nothing : scanner.tokenSpot.rest = [] := scan_tells yields
    rw [nothing] at same between
    rw [same, List.append_nil]
    exact .done between
  | cons located tokens step =>
    obtain ⟨trivia, same, offset, between⟩ := scanner.tokenSpot_passes
    obtain ⟨read, more, after⟩ := yields
    obtain ⟨start, token⟩ := located
    obtain ⟨rfl, outcome⟩ := Scanned.mk.inj read
    obtain ⟨spelling, here, moved, spells, ends⟩ :=
      scan_reads (Prod.ext outcome rfl : scan scanner.tokenSpot = (.ok token, _)) more
    have rest := step after
    have place : scanner.next.2.spot.offset =
        scanner.spot.offset + byteLength trivia + byteLength spelling := by
      rw [← offset]
      exact moved
    rw [place] at rest
    have whole := Spelled.token (here ▸ between) spells ends rest
    rwa [← here, ← same, ← offset] at whole

/-- A spelling that does not go on is read, with the trivia before it. -/
theorem next_of_spelledBy (offset : Nat) {comments : Bool} {trivia spelling rest : List Char}
    {token : Token} (between : Trivia comments (spelling ++ rest) trivia)
    (spells : token.SpelledBy spelling) (ends : token.EndsAt spelling rest) :
    (⟨⟨offset, trivia ++ (spelling ++ rest)⟩, comments⟩ : Scanner).next =
      (⟨offset + byteLength trivia, .ok token⟩,
        ⟨⟨offset + byteLength trivia + byteLength spelling, rest⟩, comments⟩) := by
  obtain ⟨first, after, same, no_blank, no_comment⟩ := spells.head
  have spot := tokenSpot_of_trivia offset between (by
    rw [same]
    rintro next ⟨⟩
    exact ⟨no_blank, no_comment⟩)
  have here : (⟨offset + byteLength trivia, spelling ++ rest⟩ : Spot).rest = spelling ++ rest :=
    rfl
  rw [next, spot, scan_of_spelledBy here spells ends]

/-- What spells a text is yielded. -/
theorem yields_of_spelled {comments : Bool} {offset : Nat} {text : List Char}
    {tokens : List Located} (spelled : Spelled comments offset text tokens) :
    Yields ⟨⟨offset, text⟩, comments⟩ tokens := by
  induction spelled with
  | @done offset trivia between =>
    have spot := tokenSpot_of_trivia offset between (by simp)
    rw [List.append_nil] at spot
    show (scan (tokenSpot _)).1 = _
    rw [spot]
    rfl
  | @token offset trivia spelling rest token tokens between spells ends more step =>
    have read := next_of_spelledBy offset between spells ends
    refine ⟨congrArg Prod.fst read, ?_, ?_⟩
    · rintro rfl
      exact spells
    · rw [read]
      exact step

/-- **The lexical grammar.** A text yields tokens exactly if it is trivia and spellings of them by
turns, each spelling as long as can be. -/
theorem ofText_yields_iff (text : String) (comments : Bool) (tokens : List Located) :
    (ofText text comments).Yields tokens ↔ Spelled comments 0 text.toList tokens :=
  ⟨Yields.spelled, yields_of_spelled⟩

/-- What is yielded is what there is on the tape. -/
theorem Yields.lexing {scanner : Scanner} {tokens : List Located} (yields : scanner.Yields tokens) :
    ∃ stop, scanner.tape.lexing = ⟨tokens, .ok stop⟩ := by
  induction tokens generalizing scanner with
  | nil =>
    refine ⟨scanner.next.1.start, ?_⟩
    have read : scanner.next.1 = ⟨scanner.next.1.start, .ok .endOfInput⟩ := by
      rw [← show scanner.next.1.outcome = .ok .endOfInput from yields]
    rw [lexing_tape, read]
    rfl
  | cons located tokens step =>
    obtain ⟨read, more, after⟩ := yields
    obtain ⟨stop, rest⟩ := step after
    exact ⟨stop, by rw [lexing_tape, read, Lexing.add_token more, rest]⟩

/-- What there is on a tape that reaches the end of the input is what is yielded. -/
theorem yields_of_lexing {scanner : Scanner} {tokens : List Located} {stop : Nat}
    (lexing : scanner.tape.lexing = ⟨tokens, .ok stop⟩) : scanner.Yields tokens := by
  induction tokens generalizing scanner with
  | nil =>
    rw [lexing_tape] at lexing
    rcases Lexing.add_cases lexing with ⟨ended, -⟩ | ⟨_, _, more, -⟩
    · exact ended
    · cases more
  | cons located tokens step =>
    rw [lexing_tape] at lexing
    rcases Lexing.add_cases lexing with ⟨-, nothing⟩ | ⟨first, rest, same, read, more, after⟩
    · cases nothing
    · cases same
      exact ⟨read, more, step after⟩

end Scanner

/-- A text that reaches its end is spelled out by its tokens. -/
theorem Lexing.Spells.spelled {text : String} {comments : Bool} {tokens : List Token}
    (spells : (ofText text comments).Spells tokens) :
    Spelled comments 0 text.toList (ofText text comments).tokens := by
  obtain ⟨-, reaches⟩ := spells
  cases ending : (ofText text comments).ending with
  | error error =>
    rw [ending] at reaches
    cases reaches
  | ok stop =>
    have lexing : (Scanner.ofText text comments).tape.lexing =
        ⟨(ofText text comments).tokens, .ok stop⟩ := by
      rw [← ending]
      rfl
    exact (Scanner.yields_of_lexing lexing).spelled

/-- A text that is spelled out has its tokens. -/
theorem Lexing.ofText_of_spelled {text : String} {comments : Bool} {tokens : List Located}
    (spelled : Spelled comments 0 text.toList tokens) :
    (ofText text comments).Spells (tokens.map Located.token) := by
  obtain ⟨stop, lexing⟩ := (Scanner.yields_of_spelled spelled).lexing
  have same : ofText text comments = ⟨tokens, .ok stop⟩ := lexing
  rw [same]
  exact ⟨rfl, rfl⟩

end Formula
