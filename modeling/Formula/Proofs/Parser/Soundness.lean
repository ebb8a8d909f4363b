/-
**What the parser reads, asks and refuses.**

Whatever a handler answers, the parser of a part of the grammar asks only for what the grammar
produces (`Request.From`), and ends in one of two ways. It has passed over the tokens of a
derivation, which ends before the token it has reached (`Phrase.ReadTo`). Or it has refused: after
tokens that something derived begins with, either the next token fits nowhere or what comes after
the next token cannot be read (`Refusal`).

* `Parser.layers_reads`, `Parser.nested_reads`: the layers of an expression, from the tightest to
  the loosest and from the innermost level outwards.
-/

import Formula.Proofs.Grammar.Viable
import Formula.Proofs.Parser.Steps

namespace Formula

variable {α β : Type}

/-! ### Requests -/

/-- Holds of the requests for what the grammar produces from good tokens. -/
def Request.From (good : Token → Prop) : Request α → Prop
  | number lexeme => good (.number lexeme)
  | text content => good (.text content)
  | reference segments => segments ≠ [] ∧ ∀ letters ∈ segments, good (.name letters)
  | atom _ => True
  | reduce rule (.passthrough _) => rule.kind = .unary
  | reduce rule (.unary symbol _) =>
    rule.kind = .unary ∧ ∃ operator ∈ rule.operators, operator.symbol = symbol
  | reduce rule (.binary _ rest) =>
    rule.kind = .binary ∧ ∀ link ∈ rest, ∃ operator ∈ rule.operators, operator.symbol = link.1

/-- Holds of the values that a part of the grammar takes when it is read from good tokens. -/
def Phrase.Formed (good : Token → Prop) : (phrase : Phrase) → phrase.Value α → Prop
  | links rule _, rest => ∀ link ∈ rest, ∃ operator ∈ rule.operators, operator.symbol = link.1
  | names, segments => ∀ letters ∈ segments, good (.name letters)
  | layers _, _ | call, _ | arguments, _ | moreArguments, _ => True

/-! ### Refusals -/

/-- Why a part of the grammar is not read from a cursor on. -/
inductive Refusal (limit : Nat) (phrase : Phrase) (cursor : Cursor) : ParseError → Prop
  | tooDeep (position : Nat) : Refusal limit phrase cursor ⟨.nestingTooDeep limit, position⟩
  | unexpected {seen : List Token} {stuck : Cursor} (expected : Expected)
    (passes : cursor.Passes seen stuck) (viable : phrase.Viable seen)
    (blocked : phrase.Blocked (seen ++ [stuck.token])) :
    Refusal limit phrase cursor (stuck.refusal expected)
  | unreadable {seen : List Token} {stuck : Cursor} {error : ParseError}
    (passes : cursor.Passes seen stuck) (next : stuck.next = .error error)
    (viable : phrase.Viable (seen ++ [stuck.token])) : Refusal limit phrase cursor error

namespace Refusal

variable {limit : Nat} {phrase inner : Phrase} {cursor middle : Cursor} {error : ParseError}

/-- What comes after the token at the cursor cannot be read. -/
theorem unreadable_first {token : Token} (here : cursor.token = token)
    (next : cursor.next = .error error) (viable : phrase.Viable [token]) :
    Refusal limit phrase cursor error := by
  subst here
  exact .unreadable cursor.passes_nil next viable

/-- What is refused later on is refused from here. -/
theorem after {seen : List Token} (refusal : Refusal limit inner middle error)
    (passes : cursor.Passes seen middle) (continues : phrase.Continues seen middle.token inner) :
    Refusal limit phrase cursor error := by
  cases refusal with
  | tooDeep position => exact .tooDeep position
  | @unexpected more stuck expected more_pass viable blocked =>
    refine .unexpected expected (passes.trans more_pass) (continues.viable _ viable) ?_
    rw [List.append_assoc]
    -- Blocking is passed on at the next token, which is the first of `more` or the one it stops at.
    have next := more_pass.head
    cases more with
    | nil =>
      have blocks := continues.blocked []
      rw [show middle.token = stuck.token from next] at blocks
      exact blocks blocked
    | cons token more =>
      have blocks := continues.blocked (more ++ [stuck.token])
      rw [show middle.token = token from next] at blocks
      exact blocks blocked
  | unreadable more_pass next viable =>
    refine .unreadable (passes.trans more_pass) next ?_
    rw [List.append_assoc]
    exact continues.viable _ viable

/-- The depth has no part in a refusal. -/
theorem ofDepth {depth : Nat}
    (refusal : Refusal limit phrase ({ cursor with depth } : Cursor) error) :
    Refusal limit phrase cursor error := by
  cases refusal with
  | tooDeep position => exact .tooDeep position
  | @unexpected seen stuck expected passes viable blocked =>
    show Refusal limit phrase cursor (({ stuck with depth := cursor.depth } : Cursor).refusal _)
    exact .unexpected expected (passes.setDepth cursor.depth) viable blocked
  | @unreadable seen stuck error passes next viable =>
    exact .unreadable (passes.setDepth cursor.depth) (Cursor.next_setDepth_error next _) viable

end Refusal

/-! ### Readings -/

/-- Reading a part of the grammar gives a value and leads from one cursor to another. -/
def Phrase.ReadTo (phrase : Phrase) (good : Token → Prop) (levels : Nat) (cursor : Cursor)
    (value : phrase.Value α) (last : Cursor) : Prop :=
  phrase.Formed good value ∧ ∃ derivation : Derivation phrase,
    cursor.Passes derivation.tokens last ∧ derivation.EndsBefore last.token ∧
      derivation.level < levels

/-- A dialogue reads a part of the grammar from a cursor on, with so many levels at hand, and makes
something of the value. -/
def Phrase.ReadBy (phrase : Phrase) (good : Token → Prop) (limit levels : Nat) (cursor : Cursor)
    (make : phrase.Value α → β) (dialogue : Dialogue α β) : Prop :=
  dialogue.Meets (fun _ request => request.From good)
    (fun result last =>
      ∃ value, result = make value ∧ phrase.ReadTo good levels cursor value last)
    (fun error _ => Refusal limit phrase cursor error)

namespace Parser

open Phrase

variable {good : Token → Prop} {limit levels : Nat} {cursor : Cursor}

/-- Wherever it is put, a parser reads an expression of the given layers. -/
def Reads (good : Token → Prop) (limit levels : Nat) (rules : List Rule) (parser : Parser α α) :
    Prop :=
  ∀ cursor : Cursor, cursor.Placed → cursor.All good →
    (Phrase.layers rules).ReadBy good limit levels cursor id (parser cursor)

/-! ### Names -/

theorem readTo_lastName (other : cursor.token ≠ .dot) :
    @ReadTo α .names good (levels + 1) cursor [] cursor :=
  ⟨List.forall_mem_nil _, .lastName, rfl, other, Nat.succ_pos _⟩

theorem names_read (placed : cursor.Placed) (all : cursor.All good) (bound : List Scanned)
    (before : List String) (enough : cursor.remaining ≤ bound.length) :
    Phrase.names.ReadBy good limit (levels + 1) cursor (before.reverse ++ ·)
      (names bound before cursor : Dialogue α _) := by
  induction bound generalizing cursor before with
  | nil =>
    -- The bound runs out at the end of the input only, where the loop would stop in any case.
    have ended := Cursor.remaining_eq_zero.mp (Nat.le_zero.mp enough)
    exact ⟨[], (List.append_nil _).symm, readTo_lastName (by simp [ended])⟩
  | cons item bound step =>
    rw [ReadBy, names, meets_bind, meets_cursor]
    by_cases dot : cursor.token = .dot
    · rw [if_pos dot, meets_bind]
      refine meets_advance (fun middle next => ?_) fun error next _ _ =>
        .unreadable_first dot next ⟨.name "" .lastName, _, rfl⟩
      have dot_pass : cursor.Passes [.dot] middle := ⟨dot, middle, next, rfl⟩
      have fewer := placed.remaining_lt next (by simp [dot])
      rw [meets_bind, meets_cursor]
      cases here : middle.token with
      | name letters =>
        simp only [meets_bind]
        refine meets_consume (fun after next' => ?_) fun error next' _ _ =>
          .unreadable dot_pass next' (by rw [here]; exact ⟨.name letters .lastName, _, rfl⟩)
        have pass : cursor.Passes [.dot, .name letters] after :=
          ⟨dot, middle, next, here, after, next', rfl⟩
        have fewer' := (placed.next next).remaining_lt next' (by simp [here])
        rw [List.length_cons] at enough
        have rest := step ((placed.next next).next next') ((all.next next).next next')
          (letters :: before) (by omega)
        refine rest.mono ?_ fun error _ refusal => refusal.after pass (continues_name letters)
        rintro _ last ⟨more, rfl, formed, derivation, passes, ends, -⟩
        refine ⟨letters :: more, by simp, ?_, .name letters derivation, pass.trans passes, ends,
          Nat.succ_pos _⟩
        rintro word (_ | ⟨_, inside⟩)
        · exact here ▸ (all.next next).here
        · exact formed word inside
      | _ =>
        exact meets_unexpected (.unexpected _ dot_pass ⟨.name "" .lastName, _, rfl⟩
          (blocked_name (by simp [here])))
    · rw [if_neg dot]
      exact ⟨[], (List.append_nil _).symm, readTo_lastName dot⟩

/-! ### Arguments -/

section Arguments

theorem readTo_lastArgument (other : cursor.token ≠ .comma) :
    @ReadTo α .moreArguments good (levels + 1) cursor [] cursor :=
  ⟨trivial, .lastArgument, rfl, other, Nat.succ_pos _⟩

variable {expression : Parser α α} (reads : Reads good limit levels Rule.precedence expression)

include reads

theorem moreArguments_read (placed : cursor.Placed) (all : cursor.All good) (bound : List Scanned)
    (before : List α) (enough : cursor.remaining ≤ bound.length) :
    Phrase.moreArguments.ReadBy good limit (levels + 1) cursor (before.reverse ++ ·)
      (moreArguments expression bound before cursor) := by
  induction bound generalizing cursor before with
  | nil =>
    have ended := Cursor.remaining_eq_zero.mp (Nat.le_zero.mp enough)
    exact ⟨[], (List.append_nil _).symm, readTo_lastArgument (by simp [ended])⟩
  | cons item bound step =>
    rw [ReadBy, moreArguments, meets_bind, meets_cursor]
    by_cases comma : cursor.token = .comma
    · rw [if_pos comma, meets_bind]
      obtain ⟨some_value⟩ := exists_layers Rule.precedence
      refine meets_advance (fun after next => ?_) fun error next _ _ =>
        .unreadable_first comma next ⟨.argument some_value .lastArgument, _, rfl⟩
      have comma_pass : cursor.Passes [.comma] after := ⟨comma, after, next, rfl⟩
      have fewer := placed.remaining_lt next (by simp [comma])
      rw [meets_bind]
      refine (reads after (placed.next next) (all.next next)).mono ?_
        fun error _ refusal => refusal.after comma_pass continues_value
      rintro argument middle ⟨_, rfl, -, value, value_pass, value_ends, value_level⟩
      have pass := comma_pass.trans value_pass
      have fewer' := (placed.next next).remaining_le_of_passes value_pass
      rw [List.length_cons] at enough
      have rest := step (placed.passes pass) (all.passes pass) (argument :: before) (by omega)
      refine rest.mono ?_ fun error _ refusal =>
        refusal.after pass (continues_moreArguments value_ends)
      rintro _ last ⟨more, rfl, -, derivation, passes, ends, level⟩
      exact ⟨argument :: more, by simp, trivial, .argument value derivation, pass.trans passes,
        ⟨passes.head ▸ value_ends, ends⟩, Nat.max_lt.mpr ⟨Nat.succ_lt_succ value_level, level⟩⟩
    · rw [if_neg comma]
      exact ⟨[], (List.append_nil _).symm, readTo_lastArgument comma⟩

theorem arguments_read (placed : cursor.Placed) (all : cursor.All good) :
    Phrase.arguments.ReadBy good limit (levels + 1) cursor id (arguments expression cursor) := by
  rw [ReadBy, arguments, meets_bind, meets_cursor]
  by_cases close : cursor.token = .closeParen
  · rw [if_pos close, meets_bind, meets_pure, meets_bind]
    refine meets_expect (fun last _ next => ?_) (fun error _ next _ _ => ?_)
      fun other => absurd close other
    · exact ⟨[], rfl, trivial, .noArguments, ⟨close, last, next, rfl⟩, trivial, Nat.succ_pos _⟩
    · exact .unreadable_first close next ⟨.noArguments, _, rfl⟩
  · rw [if_neg close, meets_bind]
    refine (reads cursor placed all).mono ?_
      fun error _ refusal => refusal.after cursor.passes_nil (continues_first close)
    rintro value middle ⟨_, rfl, -, first, first_pass, first_ends, first_level⟩
    rw [meets_bind, ahead, meets_bind, meets_cursor, meets_pure, meets_bind]
    have more_read := moreArguments_read reads (placed.passes first_pass) (all.passes first_pass)
      _ [value] middle.remaining_le
    refine more_read.mono ?_ fun error _ refusal =>
      refusal.after first_pass (continues_more first_ends)
    rintro _ stuck ⟨values, rfl, -, more, more_pass, more_ends, more_level⟩
    have pass := first_pass.trans more_pass
    rw [meets_bind]
    refine meets_expect (fun last here next => ?_) (fun error here next _ _ => ?_) fun other => ?_
    · refine ⟨value :: values, by simp, trivial, .someArguments first more, ?_, ?_, ?_⟩
      · exact first_pass.trans (more_pass.trans (Cursor.passes_singleton.mpr ⟨here, next⟩))
      · exact ⟨here ▸ more_pass.head ▸ first_ends, here ▸ more_ends⟩
      · exact Nat.max_lt.mpr ⟨Nat.succ_lt_succ first_level, more_level⟩
    · exact .unreadable pass next
        (by rw [here, List.append_assoc]; exact (Derivation.someArguments first more).viable)
    · refine .unexpected _ pass ?_ ?_
      · exact ⟨.someArguments first more, [.closeParen], (List.append_assoc ..).symm⟩
      · rw [List.append_assoc]
        exact blocked_arguments (more_pass.head ▸ first_ends) more_ends other

theorem call_read (placed : cursor.Placed) (all : cursor.All good) :
    Phrase.call.ReadBy good limit (levels + 1) cursor id (arguments? expression cursor) := by
  rw [ReadBy, arguments?, meets_bind, meets_cursor]
  by_cases opens : cursor.token = .openParen
  · rw [if_pos opens, meets_bind]
    refine meets_advance (fun after next => ?_) fun error next _ _ =>
      .unreadable_first opens next ⟨.called .noArguments, _, rfl⟩
    have open_pass : cursor.Passes [.openParen] after := ⟨opens, after, next, rfl⟩
    rw [meets_bind]
    refine (arguments_read reads (placed.next next) (all.next next)).mono ?_
      fun error _ refusal => refusal.after open_pass continues_arguments
    rintro values last ⟨_, rfl, -, arguments, passes, ends, level⟩
    exact ⟨some values, rfl, trivial, .called arguments, open_pass.trans passes, ends, level⟩
  · rw [if_neg opens]
    exact ⟨none, rfl, trivial, .uncalled, rfl, opens, Nat.succ_pos _⟩

/-! ### Operands -/

theorem reference_read (placed : cursor.Placed) (all : cursor.All good) {first : String}
    (here : cursor.token = .name first) :
    (Phrase.layers []).ReadBy good limit (levels + 1) cursor id (atom expression cursor) := by
  rw [ReadBy, atom, meets_bind, meets_cursor]
  simp only [here, meets_bind]
  refine meets_consume (fun after next => ?_) fun error next _ _ =>
    .unreadable_first here next ⟨.reference first .lastName .uncalled, _, rfl⟩
  have first_pass : cursor.Passes [.name first] after := ⟨here, after, next, rfl⟩
  have after_placed := placed.next next
  have after_all := all.next next
  rw [ahead, meets_bind, meets_cursor, meets_pure]
  have segments_read := @names_read α good limit levels after after_placed after_all _ [first]
    after.remaining_le
  refine segments_read.mono ?_ fun error _ refusal =>
    refusal.after first_pass (continues_names first)
  rintro _ middle ⟨segments, rfl, formed, names, names_pass, names_ends, -⟩
  rw [meets_ask]
  refine ⟨⟨by simp, ?_⟩, fun reference => ?_⟩
  · rintro letters (_ | ⟨_, inside⟩)
    · exact here ▸ all.here
    · exact formed letters inside
  refine (call_read reads (after_placed.passes names_pass) (after_all.passes names_pass)).mono ?_
    fun error _ refusal =>
      refusal.after (first_pass.trans names_pass) (continues_call first names_ends)
  rintro arguments last ⟨_, rfl, -, call, call_pass, call_ends, call_level⟩
  have pass := first_pass.trans (names_pass.trans call_pass)
  have ends : (Derivation.reference first names call).EndsBefore last.token :=
    ⟨call_pass.head ▸ names_ends, call_ends⟩
  have read (value : α) : (Phrase.layers []).ReadTo good (levels + 1) cursor value last :=
    ⟨trivial, .reference first names call, pass, ends, call_level⟩
  exact ⟨trivial, fun value => ⟨value, rfl, read value⟩⟩

theorem group_read (placed : cursor.Placed) (all : cursor.All good)
    (here : cursor.token = .openParen) :
    (Phrase.layers []).ReadBy good limit (levels + 1) cursor id (atom expression cursor) := by
  obtain ⟨some_value⟩ := exists_layers Rule.precedence
  rw [ReadBy, atom, meets_bind, meets_cursor]
  simp only [here, meets_bind]
  refine meets_consume (fun after next => ?_) fun error next _ _ =>
    .unreadable_first here next ⟨.group some_value, _, rfl⟩
  have open_pass : cursor.Passes [.openParen] after := ⟨here, after, next, rfl⟩
  refine (reads after (placed.next next) (all.next next)).mono ?_
    fun error _ refusal => refusal.after open_pass continues_inside
  rintro value middle ⟨_, rfl, -, inside, inside_pass, inside_ends, inside_level⟩
  have pass := open_pass.trans inside_pass
  refine meets_expect (fun last close next => ?_) (fun error close next _ _ => ?_) fun other => ?_
  · have close_pass : middle.Passes [.closeParen] last :=
      Cursor.passes_singleton.mpr ⟨close, next⟩
    have ends : inside.EndsBefore .closeParen := close ▸ inside_ends
    have read (value : α) : (Phrase.layers []).ReadTo good (levels + 1) cursor value last :=
      ⟨trivial, .group inside, open_pass.trans (inside_pass.trans close_pass), ends,
        Nat.succ_lt_succ inside_level⟩
    exact ⟨trivial, fun value => ⟨value, rfl, read value⟩⟩
  · exact .unreadable pass next (by rw [close]; exact (Derivation.group inside).viable)
  · exact .unexpected _ pass ⟨.group inside, [.closeParen], rfl⟩ (blocked_group inside_ends other)

theorem atom_read (placed : cursor.Placed) (all : cursor.All good) :
    (Phrase.layers []).ReadBy good limit (levels + 1) cursor id (atom expression cursor) := by
  cases here : cursor.token with
  | number lexeme =>
    rw [ReadBy, atom, meets_bind, meets_cursor]
    simp only [here, meets_bind]
    refine meets_consume (fun after next => ?_) fun error next _ _ =>
      .unreadable_first here next ⟨.number lexeme, _, rfl⟩
    have good_number : good (.number lexeme) := here ▸ all.here
    have read (value : α) : (Phrase.layers []).ReadTo good (levels + 1) cursor value after :=
      ⟨trivial, .number lexeme, ⟨here, after, next, rfl⟩, trivial, Nat.succ_pos _⟩
    exact ⟨good_number, fun literal => ⟨trivial, fun value => ⟨value, rfl, read value⟩⟩⟩
  | text content =>
    rw [ReadBy, atom, meets_bind, meets_cursor]
    simp only [here, meets_bind]
    refine meets_consume (fun after next => ?_) fun error next _ _ =>
      .unreadable_first here next ⟨.text content, _, rfl⟩
    have good_text : good (.text content) := here ▸ all.here
    have read (value : α) : (Phrase.layers []).ReadTo good (levels + 1) cursor value after :=
      ⟨trivial, .text content, ⟨here, after, next, rfl⟩, trivial, Nat.succ_pos _⟩
    exact ⟨good_text, fun literal => ⟨trivial, fun value => ⟨value, rfl, read value⟩⟩⟩
  | name first => exact reference_read reads placed all here
  | openParen => exact group_read reads placed all here
  | operator which =>
    rw [ReadBy, atom, meets_bind, meets_cursor]
    simp only [here]
    exact meets_unexpected (.unexpected _ cursor.passes_nil (viable_nil [])
      (blocked_operand (by rw [here]; rintro ⟨_, ⟨⟩, _⟩)))
  | _ =>
    rw [ReadBy, atom, meets_bind, meets_cursor]
    simp only [here]
    exact meets_unexpected (.unexpected _ cursor.passes_nil (viable_nil [])
      (blocked_operand (by rw [here]; exact id)))

end Arguments

/-! ### Layers -/

theorem readTo_lastLink {rule : Rule} {tighter : List Rule}
    (other : ∀ operator ∈ rule.operators, cursor.token ≠ .operator operator) :
    @ReadTo α (.links rule tighter) good (levels + 1) cursor [] cursor :=
  ⟨List.forall_mem_nil _, .lastLink, rfl, other, Nat.succ_pos _⟩

theorem chain_read {rule : Rule} {tighter : List Rule} {operand : Parser α α}
    (ordered : tighter.Nodup) (reads : Reads good limit (levels + 1) tighter operand)
    (placed : cursor.Placed) (all : cursor.All good) (bound : List Scanned)
    (before : List (String × α)) (enough : cursor.remaining ≤ bound.length) :
    (Phrase.links rule tighter).ReadBy good limit (levels + 1) cursor (before.reverse ++ ·)
      (chain rule operand bound before cursor) := by
  obtain ⟨some_operand⟩ := exists_layers tighter
  induction bound generalizing cursor before with
  | nil =>
    have ended := Cursor.remaining_eq_zero.mp (Nat.le_zero.mp enough)
    exact ⟨[], (List.append_nil _).symm, readTo_lastLink (by simp [ended])⟩
  | cons item bound step =>
    rw [ReadBy, chain, meets_bind]
    refine meets_operator? (fun operator member here after next => ?_)
      (fun operator member here error next _ _ =>
        .unreadable_first here next ⟨.link operator member some_operand .lastLink, _, rfl⟩)
      fun other => ⟨[], (List.append_nil _).symm, readTo_lastLink other⟩
    have operator_pass : cursor.Passes [.operator operator] after := ⟨here, after, next, rfl⟩
    have fewer := placed.remaining_lt next (by simp [here])
    simp only [meets_bind]
    refine (reads after (placed.next next) (all.next next)).mono ?_
      fun error _ refusal => refusal.after operator_pass (continues_linked member)
    rintro value middle ⟨_, rfl, -, right, right_pass, right_ends, right_level⟩
    have pass := operator_pass.trans right_pass
    have fewer' := (placed.next next).remaining_le_of_passes right_pass
    rw [List.length_cons] at enough
    have rest := step (placed.passes pass) (all.passes pass) ((operator.symbol, value) :: before)
      (by omega)
    refine rest.mono ?_ fun error _ refusal =>
      refusal.after pass (continues_moreLinks member ordered right_ends)
    rintro _ last ⟨more, rfl, formed, links, passes, ends, level⟩
    have link_ends : (Derivation.link operator member right links).EndsBefore last.token :=
      ⟨passes.head ▸ right_ends, ends⟩
    refine ⟨(operator.symbol, value) :: more, by simp, ?_, .link operator member right links,
      pass.trans passes, link_ends, Nat.max_lt.mpr ⟨right_level, level⟩⟩
    rintro link (_ | ⟨_, inside⟩)
    · exact ⟨operator, member, rfl⟩
    · exact formed link inside

theorem binary_reads {rule : Rule} {tighter : List Rule} {deeper : List Rule → Parser α α}
    (binary : rule.kind = .binary) (ordered : tighter.Nodup)
    (reads : Reads good limit (levels + 1) tighter (layers deeper tighter)) :
    Reads good limit (levels + 1) (rule :: tighter) (layers deeper (rule :: tighter)) := by
  intro cursor placed all
  simp only [ReadBy, layers, binary, meets_bind]
  refine (reads cursor placed all).mono ?_
    fun error _ refusal => refusal.after cursor.passes_nil (continues_tighter binary)
  rintro value middle ⟨_, rfl, -, first, first_pass, first_ends, first_level⟩
  rw [ahead, meets_bind, meets_cursor, meets_pure]
  have rest := @chain_read α good limit levels middle rule tighter _ ordered reads
    (placed.passes first_pass) (all.passes first_pass) _ [] middle.remaining_le
  refine rest.mono ?_ fun error _ refusal =>
    refusal.after first_pass (continues_links binary ordered first_ends)
  rintro _ last ⟨more, rfl, formed, links, passes, ends, level⟩
  have chain_ends : (Derivation.chain binary first links).EndsBefore last.token :=
    ⟨passes.head ▸ first_ends, ends⟩
  have read (value : α) :
      (Phrase.layers (rule :: tighter)).ReadTo good (levels + 1) cursor value last :=
    ⟨trivial, .chain binary first links, first_pass.trans passes, chain_ends,
      Nat.max_lt.mpr ⟨first_level, level⟩⟩
  exact ⟨⟨binary, formed⟩, fun value => ⟨value, rfl, read value⟩⟩

theorem unary_reads {rule : Rule} {tighter : List Rule} {deeper : List Rule → Parser α α}
    (unary : rule.kind = .unary) (new : rule ∉ tighter)
    (deeper_reads : Reads good limit levels (rule :: tighter) (deeper (rule :: tighter)))
    (reads : Reads good limit (levels + 1) tighter (layers deeper tighter)) :
    Reads good limit (levels + 1) (rule :: tighter) (layers deeper (rule :: tighter)) := by
  obtain ⟨some_operand⟩ := exists_layers tighter
  intro cursor placed all
  simp only [ReadBy, layers, unary, meets_bind]
  refine meets_operator? (fun operator member here after next => ?_)
    (fun operator member here error next _ _ => .unreadable_first here next
      ⟨.operated unary operator member (.bare unary some_operand), _, rfl⟩)
    fun other => ?_
  · have operator_pass : cursor.Passes [.operator operator] after := ⟨here, after, next, rfl⟩
    simp only [meets_bind]
    refine (deeper_reads after (placed.next next) (all.next next)).mono ?_
      fun error _ refusal => refusal.after operator_pass (continues_operand unary new member)
    rintro value last ⟨_, rfl, -, operand, passes, ends, level⟩
    have read (value : α) :
        (Phrase.layers (rule :: tighter)).ReadTo good (levels + 1) cursor value last :=
      ⟨trivial, .operated unary operator member operand, operator_pass.trans passes, ends,
        Nat.succ_lt_succ level⟩
    exact ⟨⟨unary, operator, member, rfl⟩, fun value => ⟨value, rfl, read value⟩⟩
  · simp only [meets_bind]
    refine (reads cursor placed all).mono ?_
      fun error _ refusal => refusal.after cursor.passes_nil (continues_bare unary other)
    rintro value last ⟨_, rfl, -, operand, passes, ends, level⟩
    have read (value : α) :
        (Phrase.layers (rule :: tighter)).ReadTo good (levels + 1) cursor value last :=
      ⟨trivial, .bare unary operand, passes, ends, level⟩
    exact ⟨unary, fun value => ⟨value, rfl, read value⟩⟩

/-- The layers of an expression are read, if what stands one level deeper is. -/
theorem layers_reads {deeper : List Rule → Parser α α}
    (deeper_reads : ∀ rules : List Rule, rules.Nodup → Reads good limit levels rules (deeper rules))
    (rules : List Rule) (ordered : rules.Nodup) :
    Reads good limit (levels + 1) rules (layers deeper rules) := by
  induction rules with
  | nil =>
    exact fun cursor placed all =>
      atom_read (deeper_reads _ Rule.precedence_nodup) placed all
  | cons rule tighter step =>
    obtain ⟨new, tighter_ordered⟩ := List.nodup_cons.mp ordered
    cases kind : rule.kind with
    | binary => exact binary_reads kind tighter_ordered (step tighter_ordered)
    | unary => exact unary_reads kind new (deeper_reads _ ordered) (step tighter_ordered)

/-! ### Nesting -/

/-- An expression is read as deep as there is room for. -/
theorem nested_reads (room : Nat) (rules : List Rule) (ordered : rules.Nodup) :
    Reads good limit room rules (nested limit room rules : Parser α α) := by
  induction room generalizing rules with
  | zero => exact fun cursor placed all => .tooDeep _
  | succ room deeper =>
    intro cursor placed all
    rw [ReadBy, nested, meets_bind, meets_move, meets_bind]
    refine (layers_reads deeper rules ordered _ (placed.setDepth _) (all.setDepth _)).mono ?_
      fun error _ refusal => refusal.ofDepth
    rintro value last ⟨_, rfl, formed, derivation, passes, ends, level⟩
    rw [meets_bind, meets_move, meets_pure]
    have back : last.depth - 1 = cursor.depth := by rw [passes.depth, Nat.add_sub_cancel]
    refine ⟨value, rfl, formed, derivation, ?_, ends, level⟩
    rw [back]
    exact passes.setDepth cursor.depth

end Parser

end Formula
