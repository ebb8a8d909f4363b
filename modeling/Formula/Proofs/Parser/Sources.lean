/-
**Where mentions come from.**

A name is mentioned only in the request for a whole operand. When that is made, the reference stands
complete among the tokens that have been passed over, and so do the arguments of a call, up to their
closing parenthesis (`Lexing.Sources`).

* `Request.Sourced`: a request mentions nothing, or something that has a source before the cursor.
* `Parser.reference_tells`: where the two kinds of mentions are made.
* `Parser.complete_tells`: all requests of a text are sourced.
-/

import Formula.Proofs.Parser.Telling
import Formula.Proofs.Parser.Texts
import Formula.Usage

namespace Formula

variable {α β : Type}

/-! ### References in a text -/

/-- The tokens that a reference is written with: its segments, with dots between them. -/
def Reference.tokens (target : Reference) : List Token :=
  match target.segments with
  | [] => []
  | first :: more => .name first :: more.flatMap fun letters => [.dot, .name letters]

/-- Holds of tokens after which no reference goes on: the last one is no dot. -/
def Lexing.Free (before : List Located) : Prop :=
  ∀ located ∈ before.getLast?, located.token ≠ .dot

theorem Lexing.free_concat {token : Token} (other : token ≠ .dot) (before : List Located)
    (start : Nat) : Free (before ++ [⟨start, token⟩]) := by
  intro located last
  rw [List.getLast?_concat] at last
  cases last
  exact other

/-- Holds of the mentions that have a source before an offset. A reference stands among the tokens,
which goes on neither before nor after it. For a variable, no parenthesis opens after it; for a
function, one does, and its arguments are there up to the closing one. -/
inductive Lexing.Sources (lexing : Lexing) (offset : Nat) : Usage.Mention → Prop
  | «variable» {before spelled after : List Located} {target : Reference}
    (split : lexing.tokens = before ++ (spelled ++ after))
    (some_segment : target.segments ≠ [])
    (spells : spelled.map Located.token = target.tokens) (begins : Free before)
    (ends : ∀ next ∈ after.head?, next.token ≠ .dot ∧ next.token ≠ .openParen)
    (earlier : ∀ located ∈ spelled, located.start < offset) :
    Sources lexing offset (.variable target.name)
  | function {before spelled listed after : List Located} {target : Reference}
    (split : lexing.tokens = before ++ (spelled ++ (listed ++ after)))
    (some_segment : target.segments ≠ [])
    (spells : spelled.map Located.token = target.tokens) (begins : Free before)
    (arguments : Derivation .arguments)
    (closed : listed.map Located.token = .openParen :: arguments.tokens)
    (earlier : ∀ located ∈ spelled ++ listed, located.start < offset) :
    Sources lexing offset (.function target.name)

/-- What has a source before an offset has it before every later one. -/
theorem Lexing.Sources.mono {lexing : Lexing} {low high : Nat} {mention : Usage.Mention}
    (source : lexing.Sources low mention) (later : low ≤ high) : lexing.Sources high mention := by
  cases source with
  | «variable» split some_segment spells begins ends earlier =>
    exact .variable split some_segment spells begins ends fun located inside =>
      Nat.lt_of_lt_of_le (earlier located inside) later
  | function split some_segment spells begins arguments closed earlier =>
    exact .function split some_segment spells begins arguments closed fun located inside =>
      Nat.lt_of_lt_of_le (earlier located inside) later

namespace Request

/-- The name in the request for an operand that is a reference or a call. -/
def mention? : Request α → Option Usage.Mention
  | atom (.reference target none) => some (.variable target.name)
  | atom (.reference target (some _)) => some (.function target.name)
  | _ => none

/-- Holds of a request at a cursor that asks for no mention, or for one that has a source. -/
def Sourced (whole : Lexing) (cursor : Cursor) (request : Request α) : Prop :=
  ∀ mention ∈ request.mention?, whole.Sources cursor.start mention

theorem Sourced.of_silent {whole : Lexing} {cursor : Cursor} {request : Request α}
    (silent : request.mention? = none) : request.Sourced whole cursor := by
  intro mention mentioned
  rw [silent] at mentioned
  cases mentioned

end Request

/-- Holds of a cursor that has passed over these tokens at least. -/
def Cursor.Further (whole : Lexing) (passed : List Located) (cursor : Cursor) : Prop :=
  ∃ more, cursor.Past whole (passed ++ more)

theorem Cursor.Past.further {whole : Lexing} {passed more : List Located} {cursor : Cursor}
    (past : cursor.Past whole (passed ++ more)) : cursor.Further whole passed :=
  ⟨more, past⟩

theorem Cursor.Past.stays {whole : Lexing} {passed : List Located} {cursor : Cursor}
    (past : cursor.Past whole passed) : cursor.Further whole passed :=
  ⟨[], by rwa [List.append_nil]⟩

theorem Cursor.Further.of_append {whole : Lexing} {passed more : List Located} {cursor : Cursor}
    (further : cursor.Further whole (passed ++ more)) : cursor.Further whole passed := by
  obtain ⟨others, past⟩ := further
  rw [List.append_assoc] at past
  exact past.further

/-- The next token is the one at the cursor, unless the tokens end there. -/
theorem Cursor.head_lexing (cursor : Cursor) :
    ∀ located ∈ cursor.lexing.tokens.head?, located.token = cursor.token := by
  intro located first
  by_cases ended : cursor.token = .endOfInput
  · rw [lexing_of_end ended] at first
    cases first
  · rw [lexing_of_token ended] at first
    cases first
    rfl

/-! ### Operands -/

namespace Parser

open Lexing (Free free_concat)

variable {whole : Lexing} {passed : List Located} {cursor : Cursor}

/-- Wherever it is put, but after a dot, a parser goes on in the text, and its requests are
sourced. -/
def Follows (whole : Lexing) (parser : Parser α β) : Prop :=
  ∀ (passed : List Located) (cursor : Cursor), cursor.Past whole passed → Free passed →
    (parser cursor).Tells (Request.Sourced whole) (fun _ after => after.Further whole passed)
      cursor.start

/-- Holds of the segments of a reference after some that came before, latest first, with the tokens
of the later ones passed over and no other to come. -/
def Named (whole : Lexing) (passed : List Located) (before segments : List String)
    (after : Cursor) : Prop :=
  ∃ more spelled, segments = before.reverse ++ more ∧
    spelled.map Located.token = more.flatMap (fun letters => [.dot, .name letters]) ∧
    after.Past whole (passed ++ spelled) ∧ after.token ≠ .dot

theorem Named.last (past : cursor.Past whole passed) (other : cursor.token ≠ .dot)
    (before : List String) : Named whole passed before before.reverse cursor :=
  ⟨[], [], (List.append_nil _).symm, rfl, by rwa [List.append_nil], other⟩

theorem Named.cons {dot name : Nat} {letters : String} {before segments : List String}
    {after : Cursor}
    (named : Named whole (passed ++ [⟨dot, .dot⟩] ++ [⟨name, .name letters⟩])
      (letters :: before) segments after) : Named whole passed before segments after := by
  obtain ⟨more, spelled, rfl, spells, past, other⟩ := named
  refine ⟨letters :: more, ⟨dot, .dot⟩ :: ⟨name, .name letters⟩ :: spelled, by simp, ?_, ?_, other⟩
  · rw [List.map_cons, List.map_cons, spells]
    rfl
  · rw [List.append_assoc, List.append_assoc] at past
    exact past

theorem names_tells {asks : Cursor → Request α → Prop} (past : cursor.Past whole passed)
    (bound : List Scanned) (before : List String) (enough : cursor.remaining ≤ bound.length) :
    (names bound before cursor).Tells asks (Named whole passed before) cursor.start := by
  induction bound generalizing cursor passed before with
  | nil =>
    have ended := Cursor.remaining_eq_zero.mp (Nat.le_zero.mp enough)
    exact tells_pure (.last past (by simp [ended]) before)
  | cons item bound step =>
    rw [names, cursor_bind]
    by_cases dot : cursor.token = .dot
    · rw [if_pos dot]
      refine tells_bind (tells_advance past (by simp [dot]) fun middle next past_dot => ?_)
      rw [dot] at past_dot
      have fewer := past.placed.remaining_lt next (by simp [dot])
      rw [cursor_bind]
      cases here : middle.token with
      | name letters =>
        refine tells_bind (tells_consume past_dot (by simp [here]) fun after next' past_name => ?_)
        rw [here] at past_name
        have fewer' := past_dot.placed.remaining_lt next' (by simp [here])
        rw [List.length_cons] at enough
        have rest := step past_name (letters :: before) (by omega)
        exact rest.mono fun _ _ named => named.cons
      | _ => exact tells_unexpected _
    · rw [if_neg dot]
      exact tells_pure (.last past dot before)

/-! ### Arguments -/

section Arguments

variable {expression : Parser α α} (follows : Follows whole expression)

include follows

theorem moreArguments_tells (past : cursor.Past whole passed) (bound : List Scanned)
    (before : List α) :
    (moreArguments expression bound before cursor).Tells (Request.Sourced whole)
      (fun _ after => after.Further whole passed) cursor.start := by
  induction bound generalizing cursor passed before with
  | nil => exact tells_pure past.stays
  | cons item bound step =>
    rw [moreArguments, cursor_bind]
    by_cases comma : cursor.token = .comma
    · rw [if_pos comma]
      refine tells_bind (tells_advance past (by simp [comma]) fun middle _ past_comma => ?_)
      rw [comma] at past_comma
      have value := follows _ middle past_comma (free_concat Token.noConfusion _ _)
      refine tells_bind (value.mono ?_)
      rintro argument after ⟨more, past_after⟩
      have rest := step past_after (argument :: before)
      refine rest.mono fun _ _ further => ?_
      exact further.of_append.of_append
    · rw [if_neg comma]
      exact tells_pure past.stays

theorem arguments_tells (past : cursor.Past whole passed) (free : Free passed) :
    (arguments expression cursor).Tells (Request.Sourced whole)
      (fun _ after => after.Further whole passed) cursor.start := by
  have closes (values : List α) {last : Cursor} (further : last.Further whole passed) :
      ((expect .closeParen .separatorOrClosing >>= fun _ => pure values : Parser α _) last).Tells
        (Request.Sourced whole) (fun _ after => after.Further whole passed) last.start := by
    obtain ⟨more, past_last⟩ := further
    refine tells_bind (tells_expect past_last Token.noConfusion fun after past_after => ?_)
    exact tells_pure past_after.stays.of_append.of_append
  rw [arguments, cursor_bind]
  by_cases close : cursor.token = .closeParen
  · rw [if_pos close]
    exact closes [] past.stays
  · rw [if_neg close]
    refine tells_bind ((follows passed cursor past free).mono ?_)
    rintro first middle ⟨more, past_middle⟩
    rw [ahead_bind]
    have more_tells :=
      moreArguments_tells follows past_middle (middle.tape.last :: middle.tape.items) [first]
    exact tells_bind (more_tells.mono fun values last further => closes values further.of_append)

/-- What comes after a reference: nothing that opens, or the arguments of a call, to the end. -/
theorem call_tells {limit levels : Nat}
    (reads : Reads (fun _ => True) limit levels Rule.precedence expression)
    (past : cursor.Past whole passed) :
    (arguments? expression cursor).Tells (Request.Sourced whole)
      (fun values after =>
        match values with
        | none => after = cursor ∧ cursor.token ≠ .openParen
        | some _ => ∃ (listed : List Located) (list : Derivation .arguments),
          listed.map Located.token = .openParen :: list.tokens ∧
            after.Past whole (passed ++ listed)) cursor.start := by
  rw [arguments?, cursor_bind]
  by_cases opens : cursor.token = .openParen
  · rw [if_pos opens]
    refine tells_bind (tells_advance past (by simp [opens]) fun middle next past_open => ?_)
    rw [opens] at past_open
    have read := arguments_read reads past_open.placed ⟨trivial, by simp, by simp⟩
    have told := arguments_tells follows past_open (free_concat Token.noConfusion _ _)
    refine tells_bind ((told.and read).imp (fun _ _ asked => asked.1) ?_)
    rintro values after ⟨-, _, rfl, -, list, passes, -⟩
    obtain ⟨inside, spells, past_after⟩ := past_open.passes passes list.endOfInput_not_mem
    rw [List.append_assoc] at past_after
    refine tells_pure ⟨⟨cursor.start, .openParen⟩ :: inside, list, ?_, past_after⟩
    rw [List.map_cons, spells]
  · rw [if_neg opens]
    exact tells_pure ⟨rfl, opens⟩

/-! ### Operands -/

/-- A reference is mentioned when it stands complete, a called one with all its arguments. -/
theorem reference_tells {limit levels : Nat}
    (reads : Reads (fun _ => True) limit levels Rule.precedence expression)
    (past : cursor.Past whole passed) (free : Free passed) {first : String}
    (here : cursor.token = .name first) :
    (atom expression cursor).Tells (Request.Sourced whole)
      (fun _ after => after.Further whole passed) cursor.start := by
  rw [atom, cursor_bind]
  simp only [here]
  refine tells_bind (tells_consume past (by simp [here]) fun after _ past_first => ?_)
  rw [here] at past_first
  rw [ahead_bind]
  refine tells_bind ((names_tells past_first _ [first] after.remaining_le).mono ?_)
  rintro _ middle ⟨more, others, rfl, spells, past_names, other⟩
  refine tells_bind (tells_ask (.of_silent rfl) fun target named => ?_)
  have some_segment : target.segments ≠ [] := by simp [show target.segments = _ from named]
  have spells_target :
      (⟨cursor.start, .name first⟩ :: others).map Located.token = target.tokens := by
    rw [Reference.tokens, show target.segments = first :: more from named, List.map_cons, spells]
  rw [List.append_assoc] at past_names
  refine tells_bind ((call_tells follows reads past_names).mono ?_)
  rintro values last called
  cases values with
  | none =>
    obtain ⟨rfl, closed⟩ := called
    refine tells_ask ?_ fun _ _ => past_names.further
    rintro _ ⟨⟩
    have split := past_names.tokens
    rw [List.append_assoc] at split
    refine .variable split some_segment spells_target free (fun next following => ?_)
      fun located inside => ?_
    · rw [last.head_lexing next following]
      exact ⟨other, closed⟩
    · exact past_names.before located (List.mem_append_right _ inside)
  | some values =>
    obtain ⟨listed, list, spells_list, past_last⟩ := called
    refine tells_ask ?_ fun _ _ => (past_last.further).of_append
    rintro _ ⟨⟩
    have split := past_last.tokens
    rw [List.append_assoc, List.append_assoc] at split
    rw [List.append_assoc] at past_last
    refine .function split some_segment spells_target free list spells_list
      fun located inside => ?_
    exact past_last.before located (List.mem_append_right _ inside)

theorem atom_follows {limit levels : Nat}
    (reads : Reads (fun _ => True) limit levels Rule.precedence expression) :
    Follows whole (atom expression) := by
  intro passed cursor past free
  cases here : cursor.token with
  | number lexeme =>
    rw [atom, cursor_bind]
    simp only [here]
    refine tells_bind (tells_consume past (by simp [here]) fun after _ past_after => ?_)
    refine tells_bind (tells_ask (.of_silent rfl) fun value _ => ?_)
    exact tells_ask (.of_silent rfl) fun _ _ => past_after.further
  | text content =>
    rw [atom, cursor_bind]
    simp only [here]
    refine tells_bind (tells_consume past (by simp [here]) fun after _ past_after => ?_)
    refine tells_bind (tells_ask (.of_silent rfl) fun value _ => ?_)
    exact tells_ask (.of_silent rfl) fun _ _ => past_after.further
  | name first => exact reference_tells follows reads past free here
  | openParen =>
    rw [atom, cursor_bind]
    simp only [here]
    refine tells_bind (tells_consume past (by simp [here]) fun after _ past_open => ?_)
    rw [here] at past_open
    have inside := follows _ after past_open (free_concat Token.noConfusion _ _)
    refine tells_bind (inside.mono ?_)
    rintro value middle ⟨more, past_inside⟩
    refine tells_bind (tells_expect past_inside Token.noConfusion fun last past_close => ?_)
    refine tells_ask (.of_silent rfl) fun _ _ => ?_
    exact past_close.stays.of_append.of_append.of_append
  | _ =>
    rw [atom, cursor_bind]
    simp only [here]
    exact tells_unexpected _

end Arguments

/-! ### Layers -/

theorem chain_tells {rule : Rule} {operand : Parser α α} (follows : Follows whole operand)
    (past : cursor.Past whole passed) (bound : List Scanned) (before : List (String × α)) :
    (chain rule operand bound before cursor).Tells (Request.Sourced whole)
      (fun _ after => after.Further whole passed) cursor.start := by
  induction bound generalizing cursor passed before with
  | nil => exact tells_pure past.stays
  | cons item bound step =>
    rw [chain]
    refine tells_bind (tells_operator? rule past (fun operator middle past_operator => ?_) ?_)
    · have value := follows _ middle past_operator (free_concat Token.noConfusion _ _)
      refine tells_bind (value.mono ?_)
      rintro right after ⟨more, past_after⟩
      exact (step past_after ((operator.symbol, right) :: before)).mono fun _ _ further =>
        further.of_append.of_append
    · exact tells_pure past.stays

/-- The layers of an expression make sourced requests, if what stands one level deeper does. -/
theorem layers_follows {limit levels : Nat} {deeper : List Rule → Parser α α}
    (reads : Reads (fun _ => True) limit levels Rule.precedence (deeper Rule.precedence))
    (deeper_follows : ∀ rules, Follows whole (deeper rules)) (rules : List Rule) :
    Follows whole (layers deeper rules) := by
  induction rules with
  | nil => exact atom_follows (deeper_follows _) reads
  | cons rule tighter step =>
    intro passed cursor past free
    cases kind : rule.kind with
    | binary =>
      simp only [layers, kind]
      refine tells_bind ((step passed cursor past free).mono ?_)
      rintro first middle ⟨more, past_first⟩
      rw [ahead_bind]
      refine tells_bind ((chain_tells step past_first _ []).mono fun rest last further => ?_)
      exact tells_ask (.of_silent rfl) fun _ _ => further.of_append
    | unary =>
      simp only [layers, kind]
      refine tells_bind (tells_operator? rule past (fun operator middle past_operator => ?_) ?_)
      · have operand := deeper_follows (rule :: tighter) _ middle past_operator
          (free_concat Token.noConfusion _ _)
        refine tells_bind (operand.mono fun value last further => ?_)
        exact tells_ask (.of_silent rfl) fun _ _ => further.of_append
      · refine tells_bind ((step passed cursor past free).mono fun value last further => ?_)
        exact tells_ask (.of_silent rfl) fun _ _ => further

/-! ### Nesting -/

theorem nested_follows (limit room : Nat) (rules : List Rule) :
    Follows whole (nested limit room rules : Parser α α) := by
  induction room generalizing rules with
  | zero => exact fun passed cursor past free => tells_refuse _
  | succ room deeper =>
    intro passed cursor past free
    have reads := @nested_reads α (fun _ => True) limit room Rule.precedence Rule.precedence_nodup
    have inside := layers_follows reads deeper rules passed
      ({ cursor with depth := cursor.depth + 1 } : Cursor) (past.setDepth _) free
    simp only [nested, move_bind]
    refine tells_bind (inside.mono ?_)
    rintro value last ⟨more, past_last⟩
    rw [move_bind]
    exact ⟨Nat.le_refl _, more, past_last.setDepth _⟩

/-- All requests that are made for a text are sourced. -/
theorem complete_tells (limit : Nat) (past : cursor.Past whole []) :
    (complete limit cursor : Dialogue α α).Tells (Request.Sourced whole) (fun _ _ => True)
      cursor.start := by
  have free : Free [] := by rintro located ⟨⟩
  rw [complete, expression]
  refine tells_bind (Dialogue.Tells.mono (nested_follows limit _ _ _ cursor past free) ?_)
  rintro value last ⟨more, past_last⟩
  refine tells_bind ?_
  rw [expect, cursor_bind]
  by_cases ended : last.token = .endOfInput
  · obtain ⟨after, next, stays⟩ := past_last.next_of_end ended
    rw [if_pos ended, advance_of_ok next]
    exact ⟨Nat.le_of_eq stays.symm, Nat.le_refl _, trivial⟩
  · rw [if_neg ended]
    exact tells_unexpected _

end Parser

end Formula
