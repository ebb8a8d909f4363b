/-
**Where an expression ends.**

An expression that stands at the beginning of a stream of tokens is read as far as it can go on. It
ends before a token exactly if that is no operator of a binary layer and, where the last token of
the expression is a name, neither a point nor an opening parenthesis: a name could go on with these
as a longer reference or as a call, and nothing else within the expression is left open.

* `Derivation.endsBefore_iff`: the tokens that an expression ends before.
-/

import Formula.Proofs.Grammar.Reading

namespace Formula

/-- The operators that stand between two operands. -/
def Operator.between : List Operator :=
  [.or, .and, .equal, .notEqual, .less, .lessEqual, .greater, .greaterEqual, .bitOr, .bitAnd,
    .plus, .minus, .times, .divide, .remainder]

theorem Operator.mem_between {operator : Operator} :
    operator ∈ between ↔
      ∃ rule ∈ Rule.precedence, rule.kind = .binary ∧ operator ∈ rule.operators := by
  cases operator <;> decide

/-- Holds of a next token that is no operator of the binary ones among the layers. -/
def Token.NoOperator (rules : List Rule) (next : Token) : Prop :=
  ∀ rule ∈ rules, rule.kind = .binary → ∀ operator ∈ rule.operators, next ≠ .operator operator

/-- Holds of a next token that goes on no name, if the tokens before end with one. -/
def Token.NoReference (spelled : List Token) (next : Token) : Prop :=
  ∀ letters, spelled.getLast? = some (.name letters) → next ≠ .dot ∧ next ≠ .openParen

namespace Derivation

/-- What is to be said of the next token, for each part of the grammar. -/
@[simp]
def EndsWith : {phrase : Phrase} → Derivation phrase → Token → Prop
  | .layers rules, derivation, next =>
    next.NoOperator rules ∧ next.NoReference derivation.tokens
  | .links rule tighter, derivation, next =>
    (∀ operator ∈ rule.operators, next ≠ .operator operator) ∧
      (derivation.tokens ≠ [] → next.NoOperator tighter ∧ next.NoReference derivation.tokens)
  | .names, _, next => next ≠ .dot
  | .call, derivation, next => derivation.tokens = [] → next ≠ .openParen
  | .arguments, _, _ => True
  | .moreArguments, derivation, next => derivation.EndsBefore next

/-! ### The last token -/

theorem noReference_append {spelled more : List Token} (some_more : more ≠ []) (next : Token) :
    next.NoReference (spelled ++ more) ↔ next.NoReference more := by
  rw [Token.NoReference, List.getLast?_append,
    Option.or_of_isSome (List.getLast?_isSome.mpr some_more), Token.NoReference]

theorem noReference_of_last {spelled : List Token} {last : Token} (next : Token)
    (ends : spelled.getLast? = some last) (other : ∀ letters, last ≠ .name letters) :
    next.NoReference spelled := by
  intro letters found
  exact absurd (Option.some.inj (ends.symm.trans found)) (other letters)

/-- A reference ends with a name. -/
theorem names_last (first : String) (names : Derivation .names) :
    ∃ letters, (Token.name first :: names.tokens).getLast? = some (.name letters) := by
  match names with
  | lastName => exact ⟨first, rfl⟩
  | name letters names =>
    obtain ⟨last, ends⟩ := names_last letters names
    exact ⟨last, by rw [tokens, List.getLast?_cons_cons, List.getLast?_cons_cons, ends]⟩

/-- Arguments end with a closing parenthesis. -/
theorem arguments_last (arguments : Derivation .arguments) :
    arguments.tokens.getLast? = some .closeParen := by
  cases arguments with
  | noArguments => rfl
  | someArguments first more =>
    rw [tokens, ← List.append_assoc, List.getLast?_concat]

/-! ### The next token -/

section Layers

variable {rule : Rule} {tighter : List Rule} {next : Token}

theorem noOperator_cons_of_binary (binary : rule.kind = .binary) :
    next.NoOperator (rule :: tighter) ↔
      (∀ operator ∈ rule.operators, next ≠ .operator operator) ∧ next.NoOperator tighter := by
  simp [Token.NoOperator, binary]

theorem noOperator_cons_of_unary (unary : rule.kind = .unary) :
    next.NoOperator (rule :: tighter) ↔ next.NoOperator tighter := by
  simp [Token.NoOperator, unary]

/-- An operand with the links after it ends where the last operand ends and no link follows. -/
theorem endsBefore_linked (binary : rule.kind = .binary) (ordered : (rule :: tighter).Nodup)
    {operand : Derivation (.layers tighter)} {links : Derivation (.links rule tighter)}
    (operand_ends : operand.EndsBefore next ↔
      next.NoOperator tighter ∧ next.NoReference operand.tokens)
    (links_ends : links.EndsBefore next ↔ links.EndsWith next) :
    operand.EndsBefore (links.tokens.headD next) ∧ links.EndsBefore next ↔
      (∀ operator ∈ rule.operators, next ≠ .operator operator) ∧ next.NoOperator tighter ∧
        next.NoReference (operand.tokens ++ links.tokens) := by
  obtain ⟨new, tighter_ordered⟩ := List.nodup_cons.mp ordered
  cases links with
  | lastLink =>
    rw [tokens, List.append_nil, List.headD_nil, operand_ends, and_comm]
    exact Iff.rfl
  | link operator member right links =>
    have some_links : (link operator member right links).tokens ≠ [] := List.cons_ne_nil _ _
    have outside : Token.Outside tighter (.operator operator) :=
      Token.outside_of_binary binary new member
    have here : operand.EndsBefore ((link operator member right links).tokens.headD next) :=
      operand.endsBefore tighter_ordered outside
    rw [and_iff_right here, links_ends, EndsWith, forall_prop_of_true some_links,
      noReference_append some_links]

end Layers

/-- **The tokens that a derivation ends before.** -/
theorem endsBefore_iff_endsWith {phrase : Phrase} (derivation : Derivation phrase)
    (ordered : phrase.Ordered) (next : Token) :
    derivation.EndsBefore next ↔ derivation.EndsWith next := by
  induction derivation generalizing next with
  | number lexeme | text content =>
    refine iff_of_true trivial ⟨nofun, noReference_of_last next rfl (by simp)⟩
  | reference first names call names_ends call_ends =>
    rw [EndsBefore, names_ends trivial, call_ends trivial]
    cases call with
    | uncalled =>
      obtain ⟨letters, ends⟩ := names_last first names
      simp only [EndsWith, tokens, List.headD_nil, List.append_nil, Token.NoReference, ends]
      simp [Token.NoOperator]
    | called arguments =>
      have ends : (reference first names (called arguments)).tokens.getLast? =
          some .closeParen := by
        show ((Token.name first :: names.tokens) ++
          ([Token.openParen] ++ arguments.tokens)).getLast? = _
        rw [List.getLast?_append, List.getLast?_append, arguments_last]
        rfl
      refine iff_of_true ⟨by simp [EndsWith], by simp [EndsWith]⟩ ⟨nofun, ?_⟩
      exact noReference_of_last next ends (by simp)
  | group inside inside_ends =>
    have ends : (group inside).tokens.getLast? = some .closeParen := by
      rw [tokens, ← List.cons_append, List.getLast?_concat]
    refine iff_of_true (inside.endsBefore Phrase.expression_ordered trivial) ⟨nofun, ?_⟩
    exact noReference_of_last next ends (by simp)
  | chain binary first links first_ends links_ends =>
    rw [EndsWith, noOperator_cons_of_binary binary, and_assoc]
    exact endsBefore_linked binary ordered (first_ends (List.nodup_cons.mp ordered).2 next)
      (links_ends ⟨binary, ordered⟩ next)
  | operated unary operator member operand operand_ends =>
    obtain ⟨token, rest, spelled, -⟩ := operand.begins
    have some_operand : operand.tokens ≠ [] := spelled ▸ List.cons_ne_nil token rest
    refine (operand_ends ordered next).trans (and_congr_right' ?_)
    exact (@noReference_append [.operator operator] _ some_operand next).symm
  | bare unary operand operand_ends =>
    rw [EndsWith, noOperator_cons_of_unary unary]
    exact operand_ends (List.nodup_cons.mp ordered).2 next
  | lastLink => simp [EndsBefore, EndsWith]
  | link operator member operand links operand_ends links_ends =>
    have linked := endsBefore_linked ordered.1 ordered.2
      (operand_ends (List.nodup_cons.mp ordered.2).2 next) (links_ends ordered next)
    have some_tokens : operand.tokens ++ links.tokens ≠ [] := by
      obtain ⟨token, rest, spelled, -⟩ := operand.begins
      rw [spelled]
      exact List.cons_ne_nil _ _
    refine linked.trans (and_congr_right' ?_)
    have some_link : (link operator member operand links).tokens ≠ [] := List.cons_ne_nil _ _
    rw [forall_prop_of_true some_link]
    refine and_congr_right' ?_
    exact (@noReference_append [.operator operator] _ some_tokens next).symm
  | lastName => exact Iff.rfl
  | name letters names names_ends => exact names_ends trivial next
  | uncalled => simp [EndsBefore, EndsWith]
  | called arguments =>
    exact iff_of_true (arguments.endsBefore trivial trivial) fun nothing => by cases nothing
  | noArguments => exact Iff.rfl
  | someArguments first more =>
    exact iff_of_true ((someArguments first more).endsBefore trivial trivial) trivial
  | lastArgument | argument => exact Iff.rfl

/-- **The tokens that an expression ends before**: no operator between two operands and, after a
name, no point and no opening parenthesis. -/
theorem endsBefore_iff (derivation : Derivation .expression) (next : Token) :
    derivation.EndsBefore next ↔
      (∀ operator ∈ Operator.between, next ≠ .operator operator) ∧
        next.NoReference derivation.tokens := by
  have operators : next.NoOperator Rule.precedence ↔
      ∀ operator ∈ Operator.between, next ≠ .operator operator := by
    simp only [Token.NoOperator, Operator.mem_between]
    grind
  rw [endsBefore_iff_endsWith derivation Phrase.expression_ordered, EndsWith, operators]

end Derivation

end Formula
