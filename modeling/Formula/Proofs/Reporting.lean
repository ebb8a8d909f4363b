/-
**What a compilation into a tree reports.**

The events of a derivation can be read off it: every layer reports what it matched, children first,
with one event for a whole chain, and one also for a layer that matched one operand alone; calls and
numbers are reported where they are met (`Derivation.events`). Answering its requests with trees
adds these events to the journal and does nothing else. An action that does so `Reports` them;
actions that report one after the other report the events of the one and then those of the other.

* `Derivation.perform_reports`: what answering the requests of a derivation reports.
* `compile_derivation`: what compiling a text into a tree comes to, events and all.
* `Derivation.events_inexact`: the warnings are those of the numbers that are spelled.
-/

import Formula.Proofs.Expressions

namespace Formula

variable {σ κ ε α β : Type}

/-! ### Events -/

/-- The events of a token: those of reading a number. -/
def Token.inexact : Token → List Event
  | number lexeme => (Literal.inexact? lexeme).toList.map fun value => .inexact lexeme value
  | _ => []

/-- The events of a derivation, in order: those of its parts, then its own. -/
def Derivation.events {phrase : Phrase} : Derivation phrase → List Event
  | number lexeme => (Token.number lexeme).inexact
  | text _ => []
  | reference first names call =>
    match call.tree with
    | none => call.events
    | some arguments =>
      call.events ++ [.call (Reference.name ⟨first :: names.tree⟩) arguments.length]
  | group inside => inside.events
  | @chain rule _ _ first links =>
    first.events ++ (links.events ++ [.chain rule links.tree.length])
  | @operated rule _ _ _ _ operand => operand.events ++ [.layer rule .unary]
  | @bare rule _ _ operand => operand.events ++ [.layer rule .passthrough]
  | link _ _ operand links => operand.events ++ links.events
  | called arguments => arguments.events
  | someArguments first more => first.events ++ more.events
  | argument value more => value.events ++ more.events
  | lastLink | lastName | name _ _ | uncalled | noArguments | lastArgument => []

/-! ### Reporting -/

namespace Action

/-- Holds of an action that gives the value in every state and adds the events to the journal. -/
def Reports (action : Action (Journal σ) ε β) (value : β) (events : List Event) : Prop :=
  ∀ journal, action.run.run journal = (.ok value, ⟨journal.state, journal.events ++ events⟩)

theorem reports_pure (value : β) : Reports (pure value : Action (Journal σ) ε β) value [] := by
  intro journal
  rw [Array.appendList_nil]
  rfl

theorem Reports.bind {first : Action (Journal σ) ε α} {next : α → Action (Journal σ) ε β}
    {value : α} {result : β} {events more : List Event} (before : first.Reports value events)
    (after : (next value).Reports result more) :
    (first >>= next).Reports result (events ++ more) := by
  intro journal
  have joined : journal.events ++ events ++ more = journal.events ++ (events ++ more) :=
    Array.ext' (by simp)
  rw [run_bind_of_ok (before journal), after, joined]

/-- What goes on without a report adds no event. -/
theorem Reports.silent {first : Action (Journal σ) ε α} {next : α → Action (Journal σ) ε β}
    {value : α} {result : β} {events : List Event} (before : first.Reports value events)
    (after : (next value).Reports result []) : (first >>= next).Reports result events := by
  rw [← List.append_nil events]
  exact before.bind after

end Action

/-- A handler that answers and leaves its state alone reports the events of the request. -/
theorem Handler.journaled_reports {handler : Handler σ ε α} {request : Request α}
    {value : request.Answer} (answer : handler.answer request = pure value) :
    (handler.journaled.answer request).Reports value request.events := by
  intro journal
  simp only [journaled, answer]
  rfl

namespace Builder

open Formula.Handler (journaled_reports)

variable (ofError : Error → ε)

theorem tree_text (content : String) :
    ((tree ofError : Builder κ ε Expression).handler.journaled.answer (.text content)).Reports
      (.literal (.text content)) [] :=
  journaled_reports rfl

theorem tree_reference (first : String) (rest : List String) :
    ((tree ofError : Builder κ ε Expression).handler.journaled.answer
        (.reference (first :: rest))).Reports ⟨first :: rest⟩ [] :=
  journaled_reports rfl

/-- Joining operands to a tree reports how many operators there are. -/
theorem tree_chain {rule : Rule} (isBinary : rule.kind = .binary) (first : Expression)
    (rest : List (String × Expression)) :
    ((tree ofError : Builder κ ε Expression).handler.journaled.answer
        (.reduce rule (.binary first rest))).Reports
      (rest.foldl (fun left link => .binary link.1 left link.2) first)
      [.chain rule rest.length] := by
  refine journaled_reports ?_
  simp only [handler, reduce, isBinary]
  exact List.foldlM_pure

theorem tree_prefix {rule : Rule} (isUnary : rule.kind = .unary) (symbol : String)
    (operand : Expression) :
    ((tree ofError : Builder κ ε Expression).handler.journaled.answer
        (.reduce rule (.unary symbol operand))).Reports
      (.unary symbol operand) [.layer rule .unary] := by
  refine journaled_reports ?_
  simp only [handler, reduce, isUnary]
  rfl

theorem tree_number {lexeme : String} (readable : (Token.number lexeme).Readable) :
    ((tree ofError : Builder κ ε Expression).handler.journaled.answer (.number lexeme)).Reports
      (.literal (.ofLexeme lexeme)) (Token.number lexeme).inexact := by
  obtain ⟨literal, read⟩ := readable
  refine journaled_reports ?_
  simp only [handler, number, Literal.ofLexeme, read]
  rfl

end Builder

namespace Derivation

open Formula.Action Formula.Handler

/-- Answering the requests of a derivation with its tree reports the events of the derivation, and
does nothing else. -/
theorem perform_reports (ofError : Error → ε) {phrase : Phrase} (derivation : Derivation phrase)
    (readable : ∀ token ∈ derivation.tokens, token.Readable) :
    (derivation.perform
      (Builder.tree ofError : Builder κ ε Expression).handler.journaled.answer).Reports
        derivation.tree derivation.events := by
  induction derivation with
  | number lexeme =>
    exact (Builder.tree_number ofError (readable _ List.mem_cons_self)).silent
      (journaled_reports rfl)
  | text content => exact (Builder.tree_text ofError content).silent (journaled_reports rfl)
  | reference first names call names_step call_step =>
    rw [tokens, List.forall_mem_cons, List.forall_mem_append] at readable
    rw [perform, perform_names, pure_bind, tree, events]
    refine (Builder.tree_reference ofError first names.tree).bind ?_
    have reads := call_step readable.2.2
    generalize call.tree = arguments at reads ⊢
    cases arguments with
    | none => exact reads.silent (journaled_reports rfl)
    | some arguments => exact reads.bind (journaled_reports rfl)
  | group inside step =>
    rw [tokens, List.forall_mem_cons, List.forall_mem_append] at readable
    exact (step readable.2.1).silent (journaled_reports rfl)
  | chain binary first links first_step links_step =>
    rw [tokens, List.forall_mem_append] at readable
    refine (first_step readable.1).bind ((links_step readable.2).bind ?_)
    exact Builder.tree_chain ofError binary first.tree links.tree
  | operated unary operator member operand step =>
    rw [tokens, List.forall_mem_cons] at readable
    exact (step readable.2).bind (Builder.tree_prefix ofError unary operator.symbol operand.tree)
  | bare unary operand step => exact (step readable).bind (journaled_reports rfl)
  | lastLink => exact reports_pure _
  | link operator member operand links operand_step links_step =>
    rw [tokens, List.forall_mem_cons, List.forall_mem_append] at readable
    exact (operand_step readable.2.1).bind ((links_step readable.2.2).silent (reports_pure _))
  | lastName => exact reports_pure _
  | name letters names =>
    rw [perform_names]
    exact reports_pure _
  | uncalled => exact reports_pure _
  | called arguments step =>
    rw [tokens, List.forall_mem_cons] at readable
    exact (step readable.2).silent (reports_pure _)
  | noArguments => exact reports_pure _
  | someArguments first more first_step more_step =>
    rw [tokens, List.forall_mem_append, List.forall_mem_append] at readable
    exact (first_step readable.1).bind ((more_step readable.2.1).silent (reports_pure _))
  | lastArgument => exact reports_pure _
  | argument value more value_step more_step =>
    rw [tokens, List.forall_mem_cons, List.forall_mem_append] at readable
    exact (value_step readable.2.1).bind ((more_step readable.2.2).silent (reports_pure _))

end Derivation

/-- A text that is spelled by a derivation reports the events of the derivation. -/
theorem compile_derivation {text : String} {options : Options}
    {derivation : Derivation .expression}
    (spells : (Lexing.ofText text options.comments).Spells derivation.tokens)
    (nesting : derivation.nesting ≤ options.depthLimit) (context : κ) :
    compile (Builder.tree id) text options context =
      ⟨.ok derivation.tree, context, #[Event.compiling text] ++ derivation.events⟩ := by
  have reports := derivation.perform_reports id (Derivation.readable spells)
    ⟨context, #[Event.compiling text]⟩
  unfold compile
  rw [parse_of_derivation _ derivation spells nesting, reports]
  rfl

/-! ### Warnings -/

namespace Derivation

/-- Reading a number is all that is warned of. -/
theorem inexact_warns (token : Token) :
    token.inexact.filter (·.level = .warning) = token.inexact := by
  refine List.filter_eq_self.mpr fun event member => ?_
  cases token with
  | number lexeme =>
    obtain ⟨value, -, rfl⟩ := List.mem_map.mp member
    rfl
  | _ => cases member

theorem names_inexact : (names : Derivation .names) → names.tokens.flatMap Token.inexact = []
  | lastName => rfl
  | name _ names => names_inexact names

/-- The warnings of a derivation are those of the numbers it spells, in the order of the text. -/
theorem events_inexact {phrase : Phrase} (derivation : Derivation phrase) :
    derivation.events.filter (·.level = .warning) = derivation.tokens.flatMap Token.inexact := by
  induction derivation with
  | number lexeme =>
    rw [events, tokens, List.flatMap_singleton]
    exact inexact_warns (.number lexeme)
  | reference first names call _ call_step =>
    rw [events, tokens, List.flatMap_cons, List.flatMap_append, names_inexact, ← call_step]
    cases call.tree with
    | none => rfl
    | some arguments =>
      rw [List.filter_append]
      exact List.append_nil _
  | name letters names => exact (names_inexact (.name letters names)).symm
  | group inside step =>
    rw [events, tokens, List.flatMap_cons, List.flatMap_append, step]
    exact (List.append_nil _).symm
  | chain binary first links first_step links_step =>
    rw [events, tokens, List.filter_append, List.filter_append, first_step, links_step,
      List.flatMap_append]
    exact congrArg _ (List.append_nil _)
  | operated unary operator member operand step =>
    rw [events, List.filter_append, step]
    exact List.append_nil _
  | bare unary operand step =>
    rw [events, List.filter_append, step]
    exact List.append_nil _
  | link operator member operand links operand_step links_step =>
    rw [events, tokens, List.filter_append, operand_step, links_step, List.flatMap_cons,
      List.flatMap_append]
    rfl
  | called arguments step => exact step
  | someArguments first more first_step more_step =>
    rw [events, tokens, List.filter_append, first_step, more_step, List.flatMap_append,
      List.flatMap_append]
    exact congrArg _ (List.append_nil _).symm
  | argument value more value_step more_step =>
    rw [events, tokens, List.filter_append, value_step, more_step, List.flatMap_cons,
      List.flatMap_append]
    rfl
  | text | lastLink | lastName | uncalled | noArguments | lastArgument => rfl

end Derivation

end Formula
