/-
**The tokens of a text.**

The readings of a text are tokens up to the end of the input or up to the first reading that is no
token (`Tape.lexing`). A cursor has the same tokens ahead of it (`Cursor.lexing`), and to pass over
tokens is to walk along them.

* `Scanner.lexing_tape`: the tokens from a scanner on are the one read next and those after it.
* `Cursor.Passes.lexing`: passing over tokens takes them from those ahead.
* `Cursor.Placed.passes_lexing`: all tokens up to the end of the input can be passed over.
-/

import Formula.Proofs.Cursor

namespace Formula

/-- A token, and the offset at which it begins. -/
structure Located where
  start : Nat
  token : Token
  deriving DecidableEq

/-- The tokens from a place on, and how they end: with the end of the input, at an offset, or with
the reason why there is no token. -/
structure Lexing where
  tokens : List Located
  ending : Except ParseError Nat

/-- A reading before the tokens after it. After the end of the input, and after what is no token,
there are none. -/
def Lexing.add (scanned : Scanned) (rest : Lexing) : Lexing :=
  match scanned with
  | ⟨start, .ok .endOfInput⟩ => ⟨[], .ok start⟩
  | ⟨start, .ok token⟩ => ⟨⟨start, token⟩ :: rest.tokens, rest.ending⟩
  | ⟨_, .error error⟩ => ⟨[], .error error⟩

/-- The tokens of a tape. -/
def Tape.lexing (tape : Tape) : Lexing :=
  tape.items.foldr .add (.add tape.last ⟨[], .ok tape.last.start⟩)

theorem Tape.lexing_of_items {tape : Tape} {item : Scanned} {items : List Scanned}
    (ahead : tape.items = item :: items) :
    tape.lexing = .add item (lexing ⟨items, tape.last⟩) := by
  rw [lexing, ahead]
  rfl

theorem Tape.lexing_of_nothing {tape : Tape} (nothing : tape.items = []) :
    tape.lexing = .add tape.last ⟨[], .ok tape.last.start⟩ := by
  rw [lexing, nothing]
  rfl

/-- The tokens of a text. -/
def Lexing.ofText (text : String) (comments : Bool) : Lexing :=
  (Tape.ofText text comments).lexing

/-- The tokens alone. -/
def Lexing.spelled (lexing : Lexing) : List Token :=
  lexing.tokens.map Located.token

/-- Holds of tokens that reach the end of the input, and are these. -/
def Lexing.Spells (lexing : Lexing) (tokens : List Token) : Prop :=
  lexing.spelled = tokens ∧ lexing.ending.isOk = true

instance (lexing : Lexing) (tokens : List Token) : Decidable (lexing.Spells tokens) :=
  inferInstanceAs (Decidable (_ ∧ _))

/-! ### Along a tape -/

/-- After the last reading there is nothing. -/
theorem Lexing.add_last {scanned : Scanned} (last : scanned.isLast = true) (rest other : Lexing) :
    add scanned rest = add scanned other := by
  obtain ⟨start, outcome⟩ := scanned
  cases outcome with
  | error error => rfl
  | ok token => cases token <;> first | rfl | cases last

theorem Lexing.add_token {start : Nat} {token : Token} (more : token ≠ .endOfInput)
    (rest : Lexing) :
    add ⟨start, .ok token⟩ rest = ⟨⟨start, token⟩ :: rest.tokens, rest.ending⟩ := by
  cases token <;> first | rfl | contradiction

/-- Before tokens that reach the end of the input, a reading is that end or the first of them. -/
theorem Lexing.add_cases {scanned : Scanned} {rest : Lexing} {tokens : List Located} {stop : Nat}
    (same : add scanned rest = ⟨tokens, .ok stop⟩) :
    (scanned.outcome = .ok .endOfInput ∧ tokens = []) ∨
      ∃ located more, tokens = located :: more ∧ scanned = ⟨located.start, .ok located.token⟩ ∧
        located.token ≠ .endOfInput ∧ rest = ⟨more, .ok stop⟩ := by
  obtain ⟨start, error | token⟩ := scanned
  · cases same
  · by_cases ended : token = .endOfInput
    · subst ended
      cases same
      exact .inl ⟨rfl, rfl⟩
    · rw [add_token ended] at same
      obtain ⟨rfl, ending⟩ := Lexing.mk.inj same
      exact .inr ⟨⟨start, token⟩, rest.tokens, rfl, rfl, ended, by rw [← ending]⟩

theorem Lexing.ending_of_last {scanned : Scanned} (last : scanned.isLast = true) {rest : Lexing}
    {stop : Nat} (ending : (add scanned rest).ending = .ok stop) :
    scanned.outcome = .ok .endOfInput ∧ scanned.start = stop := by
  obtain ⟨start, outcome⟩ := scanned
  cases outcome with
  | error error => cases ending
  | ok token =>
    cases token <;> cases last
    cases ending
    exact ⟨rfl, rfl⟩

theorem Lexing.ending_of_more {scanned : Scanned} (more : scanned.isLast = false) {rest : Lexing}
    {stop : Nat} (ending : (add scanned rest).ending = .ok stop) : rest.ending = .ok stop := by
  obtain ⟨start, outcome⟩ := scanned
  cases outcome with
  | error error => cases ending
  | ok token => cases token <;> first | exact ending | cases more

namespace Scanner

/-- What was read before all else stands before all else. -/
theorem readAll_append (made before : List Scanned) (scanner : Scanner) :
    readAll (made ++ before) scanner =
      ⟨before.reverse ++ (readAll made scanner).items, (readAll made scanner).last⟩ := by
  induction made, scanner using readAll.induct with
  | case1 made scanner more step =>
    rw [readAll.eq_def made, dif_pos more, readAll.eq_def (made ++ before), dif_pos more]
    exact step
  | case2 made scanner last =>
    rw [readAll.eq_def made, dif_neg last, readAll.eq_def (made ++ before), dif_neg last]
    simp

theorem tape_of_more {scanner : Scanner} (more : scanner.next.1.isLast = false) :
    scanner.tape = ⟨scanner.next.1 :: scanner.next.2.tape.items, scanner.next.2.tape.last⟩ := by
  rw [tape, readAll, dif_pos more]
  exact readAll_append [] [scanner.next.1] scanner.next.2

theorem tape_of_last {scanner : Scanner} (last : scanner.next.1.isLast = true) :
    scanner.tape = ⟨[], scanner.next.1⟩ := by
  rw [tape, readAll, dif_neg (by simp [last])]
  rfl

/-- The tokens from a scanner on are the one read next and those after it. -/
theorem lexing_tape (scanner : Scanner) :
    scanner.tape.lexing = .add scanner.next.1 scanner.next.2.tape.lexing := by
  cases kind : scanner.next.1.isLast with
  | false =>
    rw [tape_of_more kind]
    rfl
  | true =>
    rw [tape_of_last kind]
    exact Lexing.add_last kind _ _

/-- To prove something about every scanner, prove it where the last reading is next, and else from
what holds after the next reading. -/
theorem tape_induction {motive : Scanner → Prop}
    (last : ∀ scanner : Scanner, scanner.next.1.isLast = true → motive scanner)
    (more : ∀ scanner : Scanner, scanner.next.1.isLast = false → motive scanner.next.2 →
      motive scanner) (scanner : Scanner) : motive scanner :=
  readAll.induct (fun _ scanner => motive scanner) (fun _ => more)
    (fun _ scanner kind => last scanner (eq_true_of_ne_false kind)) [] scanner

/-- What every reading keeps, and what follows from it, holds along the whole tape. -/
theorem tape_all {keeps : Scanner → Prop} {holds : Scanned → Prop}
    (step : ∀ scanner, keeps scanner → holds scanner.next.1 ∧ keeps scanner.next.2)
    {scanner : Scanner} (kept : keeps scanner) :
    (∀ item ∈ scanner.tape.items, holds item) ∧ holds scanner.tape.last := by
  induction scanner using tape_induction with
  | last scanner kind =>
    rw [tape_of_last kind]
    exact ⟨List.forall_mem_nil _, (step scanner kept).1⟩
  | more scanner kind rest =>
    rw [tape_of_more kind]
    obtain ⟨here, after⟩ := step scanner kept
    refine ⟨?_, (rest after).2⟩
    rintro item (_ | ⟨_, inside⟩)
    · exact here
    · exact (rest after).1 item inside

/-- A tape ends with the one reading that is repeated for ever. -/
theorem tape_ends (scanner : Scanner) : scanner.tape.Ends := by
  induction scanner using tape_induction with
  | last scanner kind =>
    rw [tape_of_last kind]
    exact ⟨List.forall_mem_nil _, kind⟩
  | more scanner kind rest =>
    rw [tape_of_more kind]
    refine ⟨?_, rest.last⟩
    rintro item (_ | ⟨_, inside⟩)
    · exact kind
    · exact rest.items item inside

end Scanner

/-! ### Along a cursor -/

namespace Cursor

/-- The tokens from a cursor on. -/
def lexing (cursor : Cursor) : Lexing :=
  .add ⟨cursor.start, .ok cursor.token⟩ cursor.tape.lexing

theorem lexing_of_end {cursor : Cursor} (ended : cursor.token = .endOfInput) :
    cursor.lexing = ⟨[], .ok cursor.start⟩ := by
  rw [lexing, ended]
  rfl

theorem lexing_of_token {cursor : Cursor} (more : cursor.token ≠ .endOfInput) :
    cursor.lexing =
      ⟨⟨cursor.start, cursor.token⟩ :: cursor.tape.lexing.tokens, cursor.tape.lexing.ending⟩ :=
  Lexing.add_token more _

/-- What a cursor reads next are the tokens of its tape. -/
theorem lexing_next {cursor after : Cursor} (placed : cursor.Placed)
    (next : cursor.next = .ok after) : after.lexing = cursor.tape.lexing := by
  obtain ⟨start, token, tape, found, rfl⟩ := next_eq_ok next
  rcases Tape.next_cases found with ⟨items, ahead, rfl⟩ | ⟨nothing, last, rfl⟩
  · rw [Tape.lexing_of_items ahead, lexing]
  · rw [lexing, Tape.lexing_of_nothing nothing, last]
    exact Lexing.add_last (last ▸ placed.ends.last) _ _

theorem lexing_next_error {cursor : Cursor} {error : ParseError}
    (next : cursor.next = .error error) : cursor.tape.lexing = ⟨[], .error error⟩ := by
  obtain ⟨start, tape, found⟩ := next_eq_error next
  rcases Tape.next_cases found with ⟨items, ahead, -⟩ | ⟨nothing, last, -⟩
  · rw [Tape.lexing_of_items ahead, Lexing.add]
  · rw [Tape.lexing_of_nothing nothing, last, Lexing.add]

/-- Passing over tokens takes them from those ahead. -/
theorem Passes.lexing {cursor last : Cursor} {tokens : List Token} (placed : cursor.Placed)
    (passes : cursor.Passes tokens last) (more : Token.endOfInput ∉ tokens) :
    ∃ passed : List Located, passed.map Located.token = tokens ∧
      cursor.lexing = ⟨passed ++ last.lexing.tokens, last.lexing.ending⟩ := by
  induction tokens generalizing cursor with
  | nil =>
    cases show cursor = last from passes
    exact ⟨[], rfl, rfl⟩
  | cons token tokens step =>
    obtain ⟨rfl, after, next, rest⟩ := passes
    obtain ⟨passed, rfl, ahead⟩ :=
      step (placed.next next) rest fun inside => more (List.mem_cons_of_mem _ inside)
    refine ⟨⟨cursor.start, cursor.token⟩ :: passed, rfl, ?_⟩
    rw [lexing_of_token fun ended => more (ended ▸ List.mem_cons_self),
      ← lexing_next placed next, ahead]
    rfl

/-- All tokens up to the end of the input can be passed over. -/
theorem Placed.passes_lexing {cursor : Cursor} (placed : cursor.Placed) {stop : Nat}
    (ending : cursor.lexing.ending = .ok stop) :
    ∃ last : Cursor, cursor.Passes cursor.lexing.spelled last ∧
      last.token = .endOfInput ∧ last.start = stop := by
  generalize count : cursor.remaining = left
  induction left using Nat.strongRecOn generalizing cursor with
  | ind left step =>
    by_cases ended : cursor.token = .endOfInput
    · rw [lexing_of_end ended] at ending ⊢
      cases ending
      exact ⟨cursor, rfl, ended, rfl⟩
    · rw [lexing_of_token ended] at ending ⊢
      cases next : cursor.next with
      | error error =>
        rw [lexing_next_error next] at ending
        cases ending
      | ok after =>
        rw [← lexing_next placed next] at ending ⊢
        obtain ⟨last, passes, at_end⟩ :=
          step _ (count ▸ placed.remaining_lt next ended) (placed.next next) ending rfl
        exact ⟨last, ⟨rfl, after, next, passes⟩, at_end⟩

/-! ### At the beginning of a text -/

/-- A cursor before the first token of a text. -/
def before (text : String) (options : Options) : Cursor :=
  ⟨.comma, 0, Tape.ofText text options.comments, 0⟩

theorem placed_before (text : String) (options : Options) : (before text options).Placed :=
  ⟨Scanner.tape_ends _, Token.noConfusion⟩

/-- The cursor at the first token is where one before it goes on to. -/
theorem ofText?_eq (text : String) (options : Options) :
    ofText? text options = (before text options).next :=
  rfl

theorem ofText?_ok {text : String} {options : Options} {cursor : Cursor}
    (found : ofText? text options = .ok cursor) :
    cursor.Placed ∧ cursor.depth = 0 ∧ cursor.lexing = .ofText text options.comments := by
  have placed := placed_before text options
  rw [ofText?_eq] at found
  exact ⟨placed.next found, next_depth found, lexing_next placed found⟩

theorem ofText?_error {text : String} {options : Options} {error : ParseError}
    (found : ofText? text options = .error error) :
    Lexing.ofText text options.comments = ⟨[], .error error⟩ := by
  rw [ofText?_eq] at found
  exact lexing_next_error found

end Cursor

/-- A text that reaches the end of the input can be passed over from its beginning. -/
theorem Lexing.Spells.passes {text : String} {options : Options} {tokens : List Token}
    (spells : (ofText text options.comments).Spells tokens) :
    ∃ cursor last : Cursor, Cursor.ofText? text options = .ok cursor ∧ cursor.Placed ∧
      cursor.depth = 0 ∧ cursor.Passes tokens last ∧ last.token = .endOfInput := by
  obtain ⟨rfl, ending⟩ := spells
  cases found : Cursor.ofText? text options with
  | error error =>
    rw [Cursor.ofText?_error found] at ending
    cases ending
  | ok cursor =>
    obtain ⟨placed, depth, lexing⟩ := Cursor.ofText?_ok found
    rw [← lexing] at ending ⊢
    obtain ⟨stop, ended⟩ : ∃ stop, cursor.lexing.ending = .ok stop := by
      cases ends : cursor.lexing.ending with
      | error error => rw [ends] at ending; cases ending
      | ok stop => exact ⟨stop, rfl⟩
    obtain ⟨last, passes, at_end, -⟩ := placed.passes_lexing ended
    exact ⟨cursor, last, rfl, placed, depth, passes, at_end⟩

end Formula
