/-
**Derivations are read off a stream of tokens in one way.**

A stream goes on after a derivation, and the next token has to end it there: no repetition in the
derivation could have taken one more turn (`Derivation.EndsBefore`). What can be read off a stream
is then determined by the stream, token by token.

* `Derivation.begins`, `Derivation.endsBefore`: the tokens an expression can begin with, and those
  it ends before.
* `Derivation.Reads.unique`: at most one derivation is read off a stream.
* `Derivation.tokens_injective`: the tokens of an expression determine its derivation.
-/

import Formula.Proofs.Grammar

namespace Formula

/-! ### First and next tokens -/

/-- Holds of the tokens that an expression of the given layers can begin with. -/
def Token.Begins (rules : List Rule) : Token → Prop
  | .operator which => ∃ rule ∈ rules, rule.kind = .unary ∧ which ∈ rule.operators
  | .number _ | .text _ | .name _ | .openParen => True
  | .closeParen | .comma | .dot | .endOfInput => False

/-- Holds of the tokens that no expression of the given layers goes on with. -/
def Token.Outside (rules : List Rule) : Token → Prop
  | .operator which => ∀ rule ∈ rules, rule.kind = .binary → which ∉ rule.operators
  | .dot | .openParen => False
  | _ => True

/-- Holds of the parts of the grammar in which no layer is met again among the tighter ones. -/
def Phrase.Ordered : Phrase → Prop
  | layers rules => rules.Nodup
  | links rule tighter => rule.kind = .binary ∧ (rule :: tighter).Nodup
  | _ => True

/-- Holds of the tokens that a part of the grammar never goes on with. -/
def Phrase.Outside : Phrase → Token → Prop
  | layers rules, next => next.Outside rules
  | links rule tighter, next => next.Outside (rule :: tighter)
  | names, next => next ≠ .dot
  | call, next => next ≠ .openParen
  | arguments, _ => True
  | moreArguments, next => next = .closeParen

theorem Rule.precedence_nodup : precedence.Nodup := by
  decide

theorem Phrase.expression_ordered : expression.Ordered :=
  Rule.precedence_nodup

theorem Token.Begins.cons {rule : Rule} {rules : List Rule} {first : Token}
    (begins : first.Begins rules) : first.Begins (rule :: rules) := by
  cases first with
  | operator which =>
    obtain ⟨found, member, rest⟩ := begins
    exact ⟨found, List.mem_cons_of_mem _ member, rest⟩
  | _ => exact begins

theorem Token.Outside.tail {rule : Rule} {rules : List Rule} {next : Token}
    (outside : next.Outside (rule :: rules)) : next.Outside rules := by
  cases next with
  | operator which => exact fun found member => outside found (List.mem_cons_of_mem _ member)
  | _ => exact outside

/-- An operator of a binary layer lies outside the tighter layers. -/
theorem Token.outside_of_binary {rule : Rule} {rules : List Rule} {operator : Operator}
    (binary : rule.kind = .binary) (new : rule ∉ rules) (member : operator ∈ rule.operators) :
    (Token.operator operator).Outside rules := by
  intro found inside isBinary again
  have same := Rule.operators_disjoint (binary.trans isBinary.symm) member again
  exact new (same ▸ inside)

/-- An operator of a unary layer begins nothing of the tighter layers. -/
theorem Token.not_begins_of_unary {rule : Rule} {rules : List Rule} {operator : Operator}
    (unary : rule.kind = .unary) (new : rule ∉ rules) (member : operator ∈ rule.operators) :
    ¬ (Token.operator operator).Begins rules := by
  rintro ⟨found, inside, isUnary, again⟩
  have same := Rule.operators_disjoint (unary.trans isUnary.symm) member again
  exact new (same ▸ inside)

namespace Derivation

/-- An expression begins with a token that one can begin with. -/
theorem begins {rules : List Rule} (derivation : Derivation (.layers rules)) :
    ∃ first rest, derivation.tokens = first :: rest ∧ first.Begins rules := by
  generalize same : Phrase.layers rules = phrase at derivation
  induction derivation generalizing rules with
  | number | text | reference | group => exact ⟨_, _, rfl, trivial⟩
  | chain binary first links first_begins =>
    cases same
    obtain ⟨token, rest, spelled, begins⟩ := first_begins rfl
    exact ⟨token, rest ++ links.tokens, by rw [tokens, spelled]; rfl, begins.cons⟩
  | operated unary operator member =>
    cases same
    exact ⟨_, _, rfl, _, List.mem_cons_self, unary, member⟩
  | bare unary operand operand_begins =>
    cases same
    obtain ⟨token, rest, spelled, begins⟩ := operand_begins rfl
    exact ⟨token, rest, spelled, begins.cons⟩
  | _ => cases same

/-- Holds of a next token that ends the derivation: it goes on with no repetition in it. -/
@[simp]
def EndsBefore {phrase : Phrase} : Derivation phrase → Token → Prop
  | number _, _ => True
  | text _, _ => True
  | reference _ names call, next =>
    names.EndsBefore (call.tokens.headD next) ∧ call.EndsBefore next
  | group inside, _ => inside.EndsBefore .closeParen
  | chain _ first links, next =>
    first.EndsBefore (links.tokens.headD next) ∧ links.EndsBefore next
  | operated _ _ _ operand, next => operand.EndsBefore next
  | bare _ operand, next => operand.EndsBefore next
  | @lastLink rule _, next => ∀ operator ∈ rule.operators, next ≠ .operator operator
  | link _ _ operand links, next =>
    operand.EndsBefore (links.tokens.headD next) ∧ links.EndsBefore next
  | lastName, next => next ≠ .dot
  | name _ names, next => names.EndsBefore next
  | uncalled, next => next ≠ .openParen
  | called arguments, next => arguments.EndsBefore next
  | noArguments, _ => True
  | someArguments first more, _ =>
    first.EndsBefore (more.tokens.headD .closeParen) ∧ more.EndsBefore .closeParen
  | lastArgument, next => next ≠ .comma
  | argument value more, next =>
    value.EndsBefore (more.tokens.headD next) ∧ more.EndsBefore next

/-! ### Reading -/

/-- Reading the derivation off a stream leaves the rest. -/
def Reads {phrase : Phrase} (derivation : Derivation phrase) (stream rest : List Token) : Prop :=
  stream = derivation.tokens ++ rest ∧ derivation.EndsBefore (rest.headD .endOfInput)

section Productions

variable {rule : Rule} {tighter : List Rule} {stream rest : List Token}

theorem headD_append (tokens rest : List Token) (next : Token) :
    (tokens ++ rest).headD next = tokens.headD (rest.headD next) := by
  cases tokens <;> rfl

/-- Two derivations in a row are read one after the other. -/
theorem reads_append {phrase other : Phrase} (first : Derivation phrase)
    (second : Derivation other) :
    (stream = first.tokens ++ second.tokens ++ rest ∧
        first.EndsBefore (second.tokens.headD (rest.headD .endOfInput)) ∧
        second.EndsBefore (rest.headD .endOfInput)) ↔
      ∃ middle, first.Reads stream middle ∧ second.Reads middle rest := by
  constructor
  · rintro ⟨rfl, first_ends, second_ends⟩
    refine ⟨second.tokens ++ rest, ⟨List.append_assoc .., ?_⟩, rfl, second_ends⟩
    rw [headD_append]
    exact first_ends
  · rintro ⟨middle, ⟨rfl, first_ends⟩, rfl, second_ends⟩
    rw [headD_append] at first_ends
    exact ⟨(List.append_assoc ..).symm, first_ends, second_ends⟩

/-- A token and two derivations in a row are read one after the other. -/
theorem reads_cons_append {phrase other : Phrase} (token : Token) (first : Derivation phrase)
    (second : Derivation other) :
    (stream = token :: (first.tokens ++ second.tokens) ++ rest ∧
        first.EndsBefore (second.tokens.headD (rest.headD .endOfInput)) ∧
        second.EndsBefore (rest.headD .endOfInput)) ↔
      ∃ after middle, stream = token :: after ∧ first.Reads after middle ∧
        second.Reads middle rest := by
  constructor
  · rintro ⟨rfl, ends⟩
    obtain ⟨middle, read⟩ := (reads_append first second).mp ⟨rfl, ends⟩
    exact ⟨_, middle, rfl, read⟩
  · rintro ⟨after, middle, rfl, read⟩
    obtain ⟨rfl, ends⟩ := (reads_append first second).mpr ⟨middle, read⟩
    exact ⟨rfl, ends⟩

@[grind =]
theorem reads_number {lexeme : String} :
    (number lexeme).Reads stream rest ↔ stream = .number lexeme :: rest := by
  simp [Reads, tokens, EndsBefore]

@[grind =]
theorem reads_text {content : String} :
    (text content).Reads stream rest ↔ stream = .text content :: rest := by
  simp [Reads, tokens, EndsBefore]

@[grind =]
theorem reads_reference {first : String} {names : Derivation .names} {call : Derivation .call} :
    (reference first names call).Reads stream rest ↔
      ∃ after middle, stream = .name first :: after ∧ names.Reads after middle ∧
        call.Reads middle rest :=
  reads_cons_append _ names call

@[grind =]
theorem reads_group {inside : Derivation .expression} :
    (group inside).Reads stream rest ↔
      ∃ after, stream = .openParen :: after ∧ inside.Reads after (.closeParen :: rest) := by
  simp only [Reads, tokens, EndsBefore, List.cons_append, List.append_assoc, List.headD_cons]
  grind

@[grind =]
theorem reads_chain {binary : rule.kind = .binary} {first : Derivation (.layers tighter)}
    {links : Derivation (.links rule tighter)} :
    (chain binary first links).Reads stream rest ↔
      ∃ middle, first.Reads stream middle ∧ links.Reads middle rest :=
  reads_append first links

@[grind =]
theorem reads_operated {unary : rule.kind = .unary} {operator : Operator}
    {member : operator ∈ rule.operators} {operand : Derivation (.layers (rule :: tighter))} :
    (operated unary operator member operand).Reads stream rest ↔
      ∃ after, stream = .operator operator :: after ∧ operand.Reads after rest := by
  simp only [Reads, tokens, EndsBefore, List.cons_append]
  grind

@[grind =]
theorem reads_bare {unary : rule.kind = .unary} {operand : Derivation (.layers tighter)} :
    (bare unary operand).Reads stream rest ↔ operand.Reads stream rest :=
  Iff.rfl

@[grind =]
theorem reads_lastLink :
    (@lastLink rule tighter).Reads stream rest ↔
      stream = rest ∧ ∀ operator ∈ rule.operators, rest.headD .endOfInput ≠ .operator operator :=
  Iff.rfl

@[grind =]
theorem reads_link {operator : Operator} {member : operator ∈ rule.operators}
    {operand : Derivation (.layers tighter)} {links : Derivation (.links rule tighter)} :
    (link operator member operand links).Reads stream rest ↔
      ∃ after middle, stream = .operator operator :: after ∧ operand.Reads after middle ∧
        links.Reads middle rest :=
  reads_cons_append _ operand links

@[grind =]
theorem reads_lastName :
    lastName.Reads stream rest ↔ stream = rest ∧ rest.headD .endOfInput ≠ .dot :=
  Iff.rfl

@[grind =]
theorem reads_name {letters : String} {names : Derivation .names} :
    (name letters names).Reads stream rest ↔
      ∃ after, stream = .dot :: .name letters :: after ∧ names.Reads after rest := by
  simp only [Reads, tokens, EndsBefore, List.cons_append]
  grind

@[grind =]
theorem reads_uncalled :
    uncalled.Reads stream rest ↔ stream = rest ∧ rest.headD .endOfInput ≠ .openParen :=
  Iff.rfl

@[grind =]
theorem reads_called {arguments : Derivation .arguments} :
    (called arguments).Reads stream rest ↔
      ∃ after, stream = .openParen :: after ∧ arguments.Reads after rest := by
  simp only [Reads, tokens, EndsBefore, List.cons_append]
  grind

@[grind =]
theorem reads_noArguments :
    noArguments.Reads stream rest ↔ stream = .closeParen :: rest := by
  simp [Reads, tokens, EndsBefore]

@[grind =]
theorem reads_someArguments {first : Derivation .expression} {more : Derivation .moreArguments} :
    (someArguments first more).Reads stream rest ↔
      ∃ middle, first.Reads stream middle ∧ more.Reads middle (.closeParen :: rest) := by
  rw [← reads_append]
  simp [Reads, tokens, EndsBefore]

@[grind =]
theorem reads_lastArgument :
    lastArgument.Reads stream rest ↔ stream = rest ∧ rest.headD .endOfInput ≠ .comma :=
  Iff.rfl

@[grind =]
theorem reads_argument {value : Derivation .expression} {more : Derivation .moreArguments} :
    (argument value more).Reads stream rest ↔
      ∃ after middle, stream = .comma :: after ∧ value.Reads after middle ∧
        more.Reads middle rest :=
  reads_cons_append _ value more

end Productions

/-- What is read off a stream begins with the first token there. -/
theorem Reads.begins {rules : List Rule} {derivation : Derivation (.layers rules)}
    {stream rest : List Token} (reads : derivation.Reads stream rest) :
    (stream.headD .endOfInput).Begins rules := by
  obtain ⟨first, more, spelled, begins⟩ := derivation.begins
  rw [reads.1, spelled]
  exact begins

/-- **At most one derivation is read off a stream.** -/
theorem Reads.unique {phrase : Phrase} (ordered : phrase.Ordered)
    {derivation other : Derivation phrase} {stream rest rest' : List Token}
    (reads : derivation.Reads stream rest) (also : other.Reads stream rest') :
    derivation = other ∧ rest = rest' := by
  -- Two productions that both begin a reading are told apart by the next token, or by what ends the
  -- shorter one; of one production the parts are read one after the other.
  induction derivation generalizing stream rest rest' with
  | number | text => cases other <;> grind
  | reference first names call names_unique call_unique =>
    cases other with
    | reference first' names' call' =>
      obtain ⟨after, middle, rfl, names_read, call_read⟩ := reads_reference.mp reads
      obtain ⟨after', middle', same, names_read', call_read'⟩ := reads_reference.mp also
      cases same
      obtain ⟨rfl, rfl⟩ := names_unique trivial names_read names_read'
      obtain ⟨rfl, rfl⟩ := call_unique trivial call_read call_read'
      exact ⟨rfl, rfl⟩
    | _ => grind
  | group inside inside_unique =>
    cases other with
    | group inside' =>
      obtain ⟨after, rfl, inside_read⟩ := reads_group.mp reads
      obtain ⟨after', same, inside_read'⟩ := reads_group.mp also
      cases same
      obtain ⟨rfl, same⟩ := inside_unique Phrase.expression_ordered inside_read inside_read'
      cases same
      exact ⟨rfl, rfl⟩
    | _ => grind
  | chain binary first links first_unique links_unique =>
    cases other with
    | chain _ first' links' =>
      obtain ⟨middle, first_read, links_read⟩ := reads_chain.mp reads
      obtain ⟨middle', first_read', links_read'⟩ := reads_chain.mp also
      obtain ⟨rfl, rfl⟩ := first_unique (List.nodup_cons.mp ordered).2 first_read first_read'
      obtain ⟨rfl, rfl⟩ := links_unique ⟨binary, ordered⟩ links_read links_read'
      exact ⟨rfl, rfl⟩
    | operated unary => cases binary.symm.trans unary
    | bare unary => cases binary.symm.trans unary
  | operated unary operator member operand operand_unique =>
    obtain ⟨after, rfl, operand_read⟩ := reads_operated.mp reads
    cases other with
    | chain binary => cases binary.symm.trans unary
    | operated _ operator' _ operand' =>
      obtain ⟨after', same, operand_read'⟩ := reads_operated.mp also
      cases same
      obtain ⟨rfl, rfl⟩ := operand_unique ordered operand_read operand_read'
      exact ⟨rfl, rfl⟩
    | bare _ operand' =>
      exact absurd (reads_bare.mp also).begins
        (Token.not_begins_of_unary unary (List.nodup_cons.mp ordered).1 member)
  | bare unary operand operand_unique =>
    cases other with
    | chain binary => cases binary.symm.trans unary
    | operated _ operator member operand' =>
      obtain ⟨after, rfl, operand_read'⟩ := reads_operated.mp also
      exact absurd (reads_bare.mp reads).begins
        (Token.not_begins_of_unary unary (List.nodup_cons.mp ordered).1 member)
    | bare _ operand' =>
      obtain ⟨rfl, rfl⟩ := operand_unique (List.nodup_cons.mp ordered).2 reads also
      exact ⟨rfl, rfl⟩
  | lastLink => cases other <;> grind
  | link operator member operand links operand_unique links_unique =>
    cases other with
    | lastLink => grind
    | link operator' member' operand' links' =>
      obtain ⟨after, middle, rfl, operand_read, links_read⟩ := reads_link.mp reads
      obtain ⟨after', middle', same, operand_read', links_read'⟩ := reads_link.mp also
      cases same
      obtain ⟨rfl, rfl⟩ :=
        operand_unique (List.nodup_cons.mp ordered.2).2 operand_read operand_read'
      obtain ⟨rfl, rfl⟩ := links_unique ordered links_read links_read'
      exact ⟨rfl, rfl⟩
  | lastName => cases other <;> grind
  | name letters names names_unique =>
    cases other with
    | lastName => grind
    | name letters' names' =>
      obtain ⟨after, rfl, names_read⟩ := reads_name.mp reads
      obtain ⟨after', same, names_read'⟩ := reads_name.mp also
      cases same
      obtain ⟨rfl, rfl⟩ := names_unique trivial names_read names_read'
      exact ⟨rfl, rfl⟩
  | uncalled => cases other <;> grind
  | called arguments arguments_unique =>
    cases other with
    | uncalled => grind
    | called arguments' =>
      obtain ⟨after, rfl, arguments_read⟩ := reads_called.mp reads
      obtain ⟨after', same, arguments_read'⟩ := reads_called.mp also
      cases same
      obtain ⟨rfl, rfl⟩ := arguments_unique trivial arguments_read arguments_read'
      exact ⟨rfl, rfl⟩
  | noArguments =>
    cases other with
    | noArguments => grind
    | someArguments first more =>
      obtain ⟨middle, first_read, _⟩ := reads_someArguments.mp also
      rw [reads_noArguments.mp reads] at first_read
      exact first_read.begins.elim
  | someArguments first more first_unique more_unique =>
    obtain ⟨middle, first_read, more_read⟩ := reads_someArguments.mp reads
    cases other with
    | noArguments =>
      rw [reads_noArguments.mp also] at first_read
      exact first_read.begins.elim
    | someArguments first' more' =>
      obtain ⟨middle', first_read', more_read'⟩ := reads_someArguments.mp also
      obtain ⟨rfl, rfl⟩ := first_unique Phrase.expression_ordered first_read first_read'
      obtain ⟨rfl, same⟩ := more_unique trivial more_read more_read'
      cases same
      exact ⟨rfl, rfl⟩
  | lastArgument => cases other <;> grind
  | argument value more value_unique more_unique =>
    cases other with
    | lastArgument => grind
    | argument value' more' =>
      obtain ⟨after, middle, rfl, value_read, more_read⟩ := reads_argument.mp reads
      obtain ⟨after', middle', same, value_read', more_read'⟩ := reads_argument.mp also
      cases same
      obtain ⟨rfl, rfl⟩ := value_unique Phrase.expression_ordered value_read value_read'
      obtain ⟨rfl, rfl⟩ := more_unique trivial more_read more_read'
      exact ⟨rfl, rfl⟩

/-- What ends before the next token is what is read there. -/
theorem EndsBefore.reads_eq {phrase : Phrase} (ordered : phrase.Ordered)
    {derivation other : Derivation phrase} {next : Token} {more rest : List Token}
    (ends : derivation.EndsBefore next)
    (reads : other.Reads (derivation.tokens ++ next :: more) rest) :
    derivation = other ∧ next :: more = rest :=
  Reads.unique ordered ⟨rfl, ends⟩ reads

/-! ### Ends -/

theorem links_outside {rule : Rule} {tighter : List Rule} {next : Token}
    (binary : rule.kind = .binary) (new : rule ∉ tighter) (links : Derivation (.links rule tighter))
    (outside : next.Outside tighter) : (links.tokens.headD next).Outside tighter := by
  cases links with
  | lastLink => exact outside
  | link operator member => exact Token.outside_of_binary binary new member

theorem moreArguments_outside (rules : List Rule) (more : Derivation .moreArguments) :
    (more.tokens.headD .closeParen).Outside rules := by
  cases more <;> trivial

theorem call_ne_dot {next : Token} (call : Derivation .call) (outside : next ≠ .dot) :
    call.tokens.headD next ≠ .dot := by
  cases call with
  | uncalled => exact outside
  | called arguments => simp [tokens]

/-- A derivation ends before every token that its part of the grammar never goes on with. -/
theorem endsBefore {phrase : Phrase} (derivation : Derivation phrase) (ordered : phrase.Ordered)
    {next : Token} (outside : phrase.Outside next) : derivation.EndsBefore next := by
  induction derivation generalizing next with
  | number | text | noArguments => trivial
  | reference first names call names_ends call_ends =>
    have not_dot : next ≠ .dot := by rintro rfl; exact outside
    have not_open : next ≠ .openParen := by rintro rfl; exact outside
    exact ⟨names_ends trivial (call_ne_dot call not_dot), call_ends trivial not_open⟩
  | group inside inside_ends => exact inside_ends Phrase.expression_ordered trivial
  | chain binary first links first_ends links_ends =>
    obtain ⟨new, tighter_ordered⟩ := List.nodup_cons.mp ordered
    exact ⟨first_ends tighter_ordered (links_outside binary new links outside.tail),
      links_ends ⟨binary, ordered⟩ outside⟩
  | operated unary operator member operand operand_ends => exact operand_ends ordered outside
  | bare unary operand operand_ends =>
    exact operand_ends (List.nodup_cons.mp ordered).2 outside.tail
  | lastLink =>
    rintro operator member rfl
    exact outside _ List.mem_cons_self ordered.1 member
  | link operator member operand links operand_ends links_ends =>
    obtain ⟨new, tighter_ordered⟩ := List.nodup_cons.mp ordered.2
    exact ⟨operand_ends tighter_ordered (links_outside ordered.1 new links outside.tail),
      links_ends ordered outside⟩
  | lastName => exact outside
  | name letters names names_ends => exact names_ends trivial outside
  | uncalled => exact outside
  | called arguments arguments_ends => exact arguments_ends trivial trivial
  | someArguments first more first_ends more_ends =>
    exact ⟨first_ends Phrase.expression_ordered (moreArguments_outside _ more),
      more_ends trivial rfl⟩
  | lastArgument => exact fun comma => by cases comma.symm.trans outside
  | argument value more value_ends more_ends =>
    rw [show next = .closeParen from outside]
    exact ⟨value_ends Phrase.expression_ordered (moreArguments_outside _ more),
      more_ends trivial rfl⟩

/-- An expression is read off its own tokens. -/
theorem reads_tokens (derivation : Derivation .expression) :
    derivation.Reads derivation.tokens [] :=
  ⟨(List.append_nil _).symm, derivation.endsBefore Phrase.expression_ordered trivial⟩

/-- **The tokens of an expression determine its derivation.** -/
theorem tokens_injective {derivation other : Derivation .expression}
    (same : derivation.tokens = other.tokens) : derivation = other :=
  (derivation.reads_tokens.unique Phrase.expression_ordered (same ▸ other.reads_tokens)).1

end Derivation

end Formula
