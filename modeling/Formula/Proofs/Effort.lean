/-
**The effort of a parse.**

A parse makes eleven requests at most for each token that the scanner has delivered to it, whether
it comes to an end, is refused, or is ended by its handler. It never goes back: what is delivered is
taken from the tape for good. And it ends whatever the limit on the levels is, since no loop takes
another turn, and no expression is read inside another, before a token has been passed over.

* `Parser.Consumes`: where the parser goes round, and what it passes over each time.
* `parseTapes_onward`: the readings are passed over once.
* `parse_effort`: the requests, the readings and the tokens of every parse.
-/

import Formula.Proofs.Parser.Consuming
import Formula.Proofs.Scanner.Rising

namespace Formula

variable {σ ε α : Type}

namespace Parser

/-- Holds of the loops and of the recursion of the parser, within a limit on the levels. The three
loops take their turn over and over, and another turn only after a token. What stands one level
deeper, whether in parentheses, among arguments or after an operator before it, is read only after a
token; so the room for levels has no part in what is read, if it is above the number of tokens. -/
structure Consumes (α : Type) (limit : Nat) : Prop where
  names : Repeats namesTurn (names : List Scanned → List String → Parser α _)
  arguments (room : Nat) :
    Repeats (argumentsTurn (nested limit room Rule.precedence : Parser α α))
      (moreArguments (nested limit room Rule.precedence))
  chain (room : Nat) (rule : Rule) {tighter : List Rule} (short : tighter.length ≤ 9) :
    Repeats (chainTurn rule (layers (nested limit room) tighter : Parser α α))
      (chain rule (layers (nested limit room) tighter))
  layers (room : Nat) {other : List Rule → Parser α α} {cursor : Cursor} (placed : cursor.Placed)
    (same : SameDeeper cursor.toCome (nested limit room) other) {rules : List Rule}
    (short : rules.length ≤ 9) :
    layers (nested limit room) rules cursor = layers other rules cursor
  nested {room other : Nat} {cursor : Cursor} (placed : cursor.Placed)
    (enough : cursor.toCome < room) (enough' : cursor.toCome < other) {rules : List Rule}
    (short : rules.length ≤ 9) :
    (nested limit room rules cursor : Dialogue α α) = nested limit other rules cursor

theorem consumes (α : Type) (limit : Nat) : Consumes α limit where
  names := names_repeats
  arguments room := arguments_repeats (nested_pays limit room _ (by decide))
  chain room rule tighter short :=
    chain_repeats rule
      ((layers_pays (nested_pays limit room) (Nat.add_sub_of_le short)).less (Nat.zero_le _))
  layers room _ _ placed same _ short :=
    layers_same (nested_pays limit room) same placed (Nat.le_refl _) short
  nested placed enough enough' _ short := nested_room limit placed enough enough' short

end Parser

/-! ### Readings and requests -/

/-- At the first token of a text eleven requests for each token of the text cover all of them. -/
theorem Cursor.covered_ofText? {text : String} {options : Options} {cursor : Cursor}
    (found : ofText? text options = .ok cursor) :
    cursor.Covered 0 (11 * tokensIn (Tape.ofText text options.comments).items) := by
  have placed := placed_before text options
  rw [ofText?_eq] at found
  have one := placed.toCome_next found Token.noConfusion
  have all : (before text options).toCome =
      1 + tokensIn (Tape.ofText text options.comments).items := rfl
  exact ⟨placed.next found, by omega⟩

/-- The whole parse pays for its requests with the tokens of the text. -/
theorem Parser.complete_frugal (α : Type) {text : String} {options : Options} {cursor : Cursor}
    (found : Cursor.ofText? text options = .ok cursor) :
    (complete options.depthLimit cursor : Dialogue α α).Frugal
      (fun left _ after => after.Covered 0 left) cursor.tape.items
      (11 * tokensIn (Tape.ofText text options.comments).items) :=
  complete_pays options.depthLimit (Cursor.covered_ofText? found)

/-- The readings that are left on the tape after the first one, at each request of a parse, and at
its end. -/
def parseTapes (handler : Handler σ ε α) (text : String) (options : Options) (state : σ) :
    List (List Scanned) :=
  match Cursor.ofText? text options with
  | .error _ => [(Tape.ofText text options.comments).next.2.items]
  | .ok cursor =>
    cursor.tape.items :: (Parser.complete options.depthLimit cursor).tapes handler state

/-- What is left at one time is the end of what was left at any time before. -/
theorem parseTapes_onward (handler : Handler σ ε α) (text : String) (options : Options)
    (state : σ) :
    ((Tape.ofText text options.comments).items :: parseTapes handler text options state).Pairwise
      fun before after => after <:+ before := by
  rw [parseTapes]
  cases found : Cursor.ofText? text options with
  | error error => exact List.pairwise_pair.mpr (Tape.next_suffix _)
  | ok cursor =>
    have later := (Parser.complete_frugal α found).run_tapes handler state
    rw [Cursor.ofText?_eq] at found
    have fewer : cursor.tape.items <:+ (Tape.ofText text options.comments).items :=
      Cursor.next_suffix found
    refine List.pairwise_cons.mpr ⟨List.forall_mem_cons.mpr ⟨fewer, fun left inside => ?_⟩, later⟩
    exact ((List.pairwise_cons.mp later).1 left inside).trans fewer

/-- The calls of a parse are paid for, and so are all that the tokens left at its end could take. -/
theorem parseCalls_covered (handler : Handler σ ε α) (text : String) (options : Options)
    (state : σ) :
    ∃ left, (parseTapes handler text options state).getLast? = some left ∧
      (parseCalls handler text options state).length + 11 * tokensIn left ≤
        11 * tokensIn (Tape.ofText text options.comments).items := by
  rw [parseCalls_eq, parseTapes]
  cases found : Cursor.ofText? text options with
  | error error =>
    have fewer := tokensIn_le (Tape.ofText text options.comments).next_suffix
    refine ⟨(Tape.ofText text options.comments).next.2.items, rfl, ?_⟩
    rw [List.length_nil]
    omega
  | ok cursor =>
    have last := (Parser.complete options.depthLimit cursor).getLast?_tapes handler state
    refine ⟨_, by rw [List.getLast?_cons, last], ?_⟩
    exact (Parser.complete_frugal α found).run_spends handler (fun _ _ _ => Cursor.Covered.tokens)
      state

/-- **The effort of a parse.** Whatever the handler answers, and whether the parse comes to its end
or is ended before, it makes eleven requests at most for each token that has been delivered by then.
The readings begin one after another, and what is left of them only gets less, so that none is
delivered twice. The loops and the recursion go round after a token only, so that no limit on the
levels is needed for an end. -/
theorem parse_effort (handler : Handler σ ε α) (text : String) (options : Options) (state : σ) :
    (∃ delivered left, (Tape.ofText text options.comments).items = delivered ++ left ∧
      (parseTapes handler text options state).getLast? = some left ∧
      (parseCalls handler text options state).length ≤ 11 * tokensIn delivered) ∧
    (Tape.ofText text options.comments).items.Pairwise
      (fun earlier later => earlier.start < later.start) ∧
    ((Tape.ofText text options.comments).items :: parseTapes handler text options state).Pairwise
      (fun before after => after <:+ before) ∧
    Parser.Consumes α options.depthLimit := by
  have onward := parseTapes_onward handler text options state
  have rising := (Scanner.ofText text options.comments).tape_items_rise.2
  refine ⟨?_, rising, onward, Parser.consumes α options.depthLimit⟩
  obtain ⟨left, last, covered⟩ := parseCalls_covered handler text options state
  obtain ⟨delivered, split⟩ := (List.pairwise_cons.mp onward).1 left (List.mem_of_getLast? last)
  rw [← split] at covered ⊢
  have tokens : tokensIn (delivered ++ left) = tokensIn delivered + tokensIn left :=
    List.countP_append
  exact ⟨delivered, left, rfl, last, by omega⟩

/-- Eleven are not too many: one name alone takes them. -/
example :
    let handler : Handler Unit Error Expression := (Builder.tree id).handler
    (parseCalls handler "a" {} ()).length = 11 := by
  decide +kernel

end Formula
