/-
**Only the tokens of a text matter.**

Let two texts, each with its own setting for comments, have the same tokens up to the end of the
input. Blanks, comments, the quotes of a text and its escapes, and the letter of an exponent may
differ, and with them the offsets of the tokens. Cursors that have passed over as many tokens of
either text (`Cursor.At`) go on alike, so the texts compile alike: the same hooks are called, and if
one text is refused so is the other, for the same cause and at the same token.

* `Cursor.respelled_simulation`: cursors at tokens with one index go on alike.
* `compile_respelled`: compilations of texts with the same tokens.
-/

import Formula.Proofs.Comparison
import Formula.Proofs.Scanner

namespace Formula

variable {σ κ ε α : Type}

/-! ### Places in a text -/

/-- The offsets at which the tokens begin, and after them the offset at which the input ends. -/
def Lexing.starts (lexing : Lexing) (stop : Nat) : List Nat :=
  lexing.tokens.map Located.start ++ [stop]

/-- Holds of a cursor that has passed over so many tokens of a text whose input ends at an
offset. -/
structure Cursor.At (lexing : Lexing) (stop index : Nat) (cursor : Cursor) : Prop where
  placed : cursor.Placed
  within : index ≤ lexing.tokens.length
  ahead : cursor.lexing = ⟨lexing.tokens.drop index, .ok stop⟩
  ending : cursor.tape.lexing.ending = .ok stop

namespace Cursor

variable {lexing : Lexing} {stop index : Nat} {cursor : Cursor}

theorem At.setDepth (here : cursor.At lexing stop index) (depth : Nat) :
    ({ cursor with depth } : Cursor).At lexing stop index :=
  ⟨here.placed.setDepth depth, here.within, here.ahead, here.ending⟩

/-- At the end of the input all tokens have been passed over. -/
theorem At.of_end (here : cursor.At lexing stop index) (ended : cursor.token = .endOfInput) :
    index = lexing.tokens.length ∧ cursor.start = stop := by
  have ahead := here.ahead
  rw [lexing_of_end ended] at ahead
  obtain ⟨nothing, same⟩ := Lexing.mk.inj ahead
  refine ⟨Nat.le_antisymm here.within ?_, Except.ok.inj same⟩
  exact List.drop_eq_nil_iff.mp nothing.symm

/-- Before the end of the input the cursor is at the token with its index. -/
theorem At.of_token (here : cursor.At lexing stop index) (more : cursor.token ≠ .endOfInput) :
    lexing.tokens[index]? = some ⟨cursor.start, cursor.token⟩ ∧
      cursor.tape.lexing = ⟨lexing.tokens.drop (index + 1), .ok stop⟩ := by
  have ahead := here.ahead
  rw [lexing_of_token more] at ahead
  obtain ⟨tokens, ending⟩ := Lexing.mk.inj ahead
  constructor
  · rw [← List.head?_drop, ← tokens]
    rfl
  · rw [← List.tail_drop, ← tokens, ← ending]
    rfl

/-- The token at a cursor is determined by the tokens of the text and the index. -/
theorem At.token (here : cursor.At lexing stop index) :
    cursor.token = lexing.spelled[index]?.getD .endOfInput := by
  rw [Lexing.spelled, List.getElem?_map]
  by_cases ended : cursor.token = .endOfInput
  · rw [List.getElem?_eq_none (Nat.le_of_eq (here.of_end ended).1.symm)]
    exact ended
  · rw [(here.of_token ended).1]
    rfl

/-- The cursor is where the token with its index begins. -/
theorem At.start (here : cursor.At lexing stop index) :
    (lexing.starts stop)[index]? = some cursor.start := by
  rw [Lexing.starts]
  by_cases ended : cursor.token = .endOfInput
  · obtain ⟨rfl, start⟩ := here.of_end ended
    rw [List.getElem?_append_right (by simp), List.length_map, Nat.sub_self, start]
    rfl
  · have found := (here.of_token ended).1
    have inside : index < lexing.tokens.length := (List.getElem?_eq_some_iff.mp found).1
    rw [List.getElem?_append_left (by rwa [List.length_map]), List.getElem?_map, found]
    rfl

/-- Going on leaves the ending of the tokens as it is. -/
theorem Placed.next_ending {cursor after : Cursor} (placed : cursor.Placed)
    (next : cursor.next = .ok after) :
    after.tape.lexing.ending = cursor.tape.lexing.ending := by
  -- Either the tape stays as it is, or its first reading has become the token at the cursor.
  by_cases ended : after.token = .endOfInput
  · rcases placed.next_cases next with ⟨-, -, more, -⟩ | ⟨-, -, tape, -⟩
    · exact absurd ended more
    · rw [tape]
  · rw [← lexing_next placed next, lexing_of_token ended]

/-- A cursor goes on to the token with the next index, or stays at the end of the input. -/
theorem At.next (here : cursor.At lexing stop index) :
    ∃ after, cursor.next = .ok after ∧
      after.At lexing stop (if cursor.token = .endOfInput then index else index + 1) := by
  cases next : cursor.next with
  | error error =>
    have ending := here.ending
    rw [lexing_next_error next] at ending
    cases ending
  | ok after =>
    have placed := here.placed.next next
    have ahead := lexing_next here.placed next
    have ending := (here.placed.next_ending next).trans here.ending
    refine ⟨after, rfl, ?_⟩
    by_cases ended : cursor.token = .endOfInput
    · rw [if_pos ended]
      have after_ended : after.token = .endOfInput := by
        rcases here.placed.next_cases next with ⟨_, _, -, found, -⟩ | ⟨after_ended, -⟩
        · rw [(here.placed.atEnd ended).1] at found
          cases found
        · exact after_ended
      obtain ⟨rfl, -⟩ := here.of_end ended
      refine ⟨placed, Nat.le_refl _, ?_, ending⟩
      have same := here.ending
      rw [← ahead, lexing_of_end after_ended] at same
      rw [lexing_of_end after_ended, List.drop_length, ← same]
    · rw [if_neg ended]
      obtain ⟨found, rest⟩ := here.of_token ended
      exact ⟨placed, (List.getElem?_eq_some_iff.mp found).1, ahead.trans rest, ending⟩

/-- A text that reaches the end of the input has a first cursor, which has passed over no token. -/
theorem at_of_text {text : String} {options : Options} {stop : Nat}
    (ending : (Lexing.ofText text options.comments).ending = .ok stop) :
    ∃ cursor, ofText? text options = .ok cursor ∧ cursor.depth = 0 ∧
      cursor.At (.ofText text options.comments) stop 0 := by
  cases found : ofText? text options with
  | error error =>
    rw [ofText?_error found] at ending
    cases ending
  | ok cursor =>
    obtain ⟨placed, depth, lexing⟩ := ofText?_ok found
    have kept := (placed_before text options).next_ending (ofText?_eq text options ▸ found)
    refine ⟨cursor, rfl, depth, placed, Nat.zero_le _, ?_, kept.trans ending⟩
    rw [lexing, List.drop_zero, ← ending]

end Cursor

/-! ### Two texts -/

theorem Lexing.Spells.ending_eq {text : String} {comments : Bool} {tokens : List Token}
    (spells : (ofText text comments).Spells tokens) :
    (ofText text comments).ending = .ok text.utf8ByteSize := by
  obtain ⟨-, reaches⟩ := spells
  cases ends : (ofText text comments).ending with
  | ok stop => rw [ofText_ending ends]
  | error error =>
    rw [ends] at reaches
    cases reaches

/-- Holds of refusals of two texts for the same cause, and at tokens with the same index. -/
def Lexing.RefuseAlike (first second : Lexing) (stop stop' : Nat) (error error' : ParseError) :
    Prop :=
  error.cause = error'.cause ∧
    ∃ index : Nat, (first.starts stop)[index]? = some error.position ∧
      (second.starts stop')[index]? = some error'.position

variable {first second : Lexing} {stop stop' : Nat}

/-- Cursors at tokens with the same index. -/
def Cursor.Respelled (first second : Lexing) (stop stop' : Nat) (cursor cursor' : Cursor) : Prop :=
  ∃ index, cursor.At first stop index ∧ cursor'.At second stop' index

theorem Cursor.Respelled.refuseAlike {cursor cursor' : Cursor}
    (here : cursor.Respelled first second stop stop' cursor') (cause : Cause) :
    first.RefuseAlike second stop stop' ⟨cause, cursor.start⟩ ⟨cause, cursor'.start⟩ := by
  obtain ⟨index, here, here'⟩ := here
  exact ⟨rfl, index, here.start, here'.start⟩

/-- Cursors at tokens with one index of the same tokens go on alike. -/
theorem Cursor.respelled_simulation (same : first.spelled = second.spelled) :
    Simulation (fun _ => False) (first.RefuseAlike second stop stop')
      (Respelled first second stop stop') where
  token := by
    rintro cursor cursor' ⟨index, here, here'⟩
    rw [here.token, here'.token, same]
  placed := fun ⟨_, here, here'⟩ => ⟨here.placed, here'.placed⟩
  refused := by
    rintro cursor cursor' ⟨index, here, here'⟩ expected
    have token : cursor.token = cursor'.token := by rw [here.token, here'.token, same]
    rw [refusal, refusal, ← token]
    cases cursor.token <;> exact Respelled.refuseAlike ⟨index, here, here'⟩ _
  setDepth := fun ⟨index, here, here'⟩ depth depth' =>
    ⟨index, here.setDepth depth, here'.setDepth depth'⟩
  next := by
    rintro cursor cursor' ⟨index, here, here'⟩
    have token : cursor.token = cursor'.token := by rw [here.token, here'.token, same]
    obtain ⟨after, next, there⟩ := here.next
    obtain ⟨after', next', there'⟩ := here'.next
    rw [← token] at there'
    exact .inl ⟨after, after', next, next', _, there, there'⟩

/-- The dialogues of texts with the same tokens are alike. -/
theorem Dialogue.ofText_respelled {first second : String} {options options' : Options}
    {tokens : List Token} (spells : (Lexing.ofText first options.comments).Spells tokens)
    (spells' : (Lexing.ofText second options'.comments).Spells tokens)
    (levels : options.depthLimit = options'.depthLimit) :
    (ofText first options : Dialogue α α).Alike (fun _ => False)
      ((Lexing.ofText first options.comments).RefuseAlike (.ofText second options'.comments)
        first.utf8ByteSize second.utf8ByteSize)
      (fun _ _ _ => True) (ofText second options') := by
  obtain ⟨cursor, found, depth, here⟩ := Cursor.at_of_text spells.ending_eq
  obtain ⟨cursor', found', depth', here'⟩ := Cursor.at_of_text spells'.ending_eq
  rw [ofText_of_ok found, ofText_of_ok found']
  have simulation := @Cursor.respelled_simulation _ _ first.utf8ByteSize second.utf8ByteSize
    (spells.1.trans spells'.1.symm)
  have complete := @Parser.complete_alike α _ _ _ simulation options.depthLimit options'.depthLimit
    cursor cursor' ⟨0, here, here'⟩ fun reached reached' there => by
      rw [depth, depth', levels]
      exact .inr ⟨there.refuseAlike _, rfl⟩
  exact complete.mono fun _ _ _ _ => trivial

/-- **Only the tokens of a text matter.** Compilations of two texts with the same tokens call the
same hooks with the same results and leave the same context. Either none of them is refused, and
they have the same outcome, or both are refused for the same cause, each where its token with the
same index begins, or where its text ends. -/
theorem compile_respelled (builder : Builder κ ε α) (context : κ) (depthLimit : Nat)
    (first second : String) (comments comments' : Bool) (tokens : List Token)
    (spells : (Lexing.ofText first comments).Spells tokens)
    (spells' : (Lexing.ofText second comments').Spells tokens) :
    let options : Options := ⟨comments, depthLimit⟩
    let options' : Options := ⟨comments', depthLimit⟩
    hookCalls builder first options context = hookCalls builder second options' context ∧
      (compile builder first options context).context =
        (compile builder second options' context).context ∧
      (parseRefusal? builder.handler first options context = none ∧
          parseRefusal? builder.handler second options' context = none ∧
          (compile builder first options context).outcome =
            (compile builder second options' context).outcome ∨
        ∃ (cause : Cause) (index position position' : Nat),
          ((Lexing.ofText first comments).starts first.utf8ByteSize)[index]? = some position ∧
          ((Lexing.ofText second comments').starts second.utf8ByteSize)[index]? = some position' ∧
          parseRefusal? builder.handler first options context = some ⟨cause, position⟩ ∧
          parseRefusal? builder.handler second options' context = some ⟨cause, position'⟩ ∧
          (compile builder first options context).outcome =
            .error (builder.ofError (.refused ⟨cause, position⟩)) ∧
          (compile builder second options' context).outcome =
            .error (builder.ofError (.refused ⟨cause, position'⟩))) := by
  intro options options'
  have alike := @Dialogue.ofText_respelled α first second options options' tokens spells spells' rfl
  -- The dialogues do not depend on the builder, so they are alike for the logged one as well.
  have calls : hookCalls builder first options context =
      hookCalls builder second options' context := by
    rcases compile_alike builder.logged alike ⟨context, []⟩ with ⟨_, -, stop⟩ | ⟨same, -⟩
    · exact stop.elim
    · exact congrArg HookLog.calls same
  rcases compile_alike builder alike context with ⟨_, -, stop⟩ | ⟨same, outcomes⟩
  · exact stop.elim
  refine ⟨calls, same, outcomes.imp_right ?_⟩
  rintro ⟨⟨cause, position⟩, ⟨cause', position'⟩, refused, refused', rfl, index, begins, begins'⟩
  exact ⟨cause, index, position, position', begins, begins', refused, refused',
    compile_of_parseRefusal? builder refused, compile_of_parseRefusal? builder refused'⟩

/-- Quotes, escapes, blanks, a comment and the letter of an exponent make no difference to a call.
An unfinished one is refused at the end of either text. -/
theorem compile_respelled_call :
    (compile (Builder.tree id) "f('it\\'s', 1E2) # note" ⟨true, 32⟩ ()).outcome =
        (compile (Builder.tree id) "f(\"it's\" ,1e2)" ⟨false, 32⟩ ()).outcome ∧
      ∃ index : Nat, ((Lexing.ofText "f(1" false).starts 3)[index]? = some 3 ∧
        ((Lexing.ofText "f ( 1 # open" true).starts 12)[index]? = some 12 := by
  constructor
  · have respelled := compile_respelled (Builder.tree id) () 32 "f('it\\'s', 1E2) # note"
      "f(\"it's\" ,1e2)" true false
      [.name "f", .openParen, .text "it's", .comma, .number "1e2", .closeParen]
      (by decide +kernel) (by decide +kernel)
    rcases respelled.2.2 with ⟨-, -, same⟩ | ⟨cause, index, position, _, -, -, refused, -⟩
    · exact same
    · have accepted : parseRefusal? (Builder.tree id).handler "f('it\\'s', 1E2) # note"
          ⟨true, 32⟩ () = none := by decide +kernel
      cases accepted.symm.trans refused
  · have refused : parseRefusal? (Builder.tree id).handler "f(1" ⟨false, 32⟩ () =
        some ⟨.unexpectedEnd .separatorOrClosing, 3⟩ := by decide +kernel
    have refused' : parseRefusal? (Builder.tree id).handler "f ( 1 # open" ⟨true, 32⟩ () =
        some ⟨.unexpectedEnd .separatorOrClosing, 12⟩ := by decide +kernel
    have respelled := compile_respelled (Builder.tree id) () 32 "f(1" "f ( 1 # open" false true
      [.name "f", .openParen, .number "1"] (by decide +kernel) (by decide +kernel)
    rcases respelled.2.2 with ⟨kept, -⟩ | ⟨_, index, _, _, begins, begins', found, found', -⟩
    · cases kept.symm.trans refused
    · cases found.symm.trans refused
      cases found'.symm.trans refused'
      exact ⟨index, begins, begins'⟩

end Formula
