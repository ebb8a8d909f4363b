/-
**Which trees texts have.**

The trees of texts are the expressions of the language (`Vocabulary.language`): literals have no
sign, references have names, and operators are those of their kind. What is read stays within that
vocabulary, part by part (`Derivation.tree_within`). And every expression of it is the tree of a
derivation whose tokens can be spelled (`Expression.Within.spellable`), where the infinity is a
number too large to be met; tokens that can be spelled are those of a text, with blanks between
them (`Writes.exists_text`).

* `Expression.ofText?_within`: the tree of a text is an expression of the language.
* `Expression.exists_text_iff`: and all such expressions are trees of texts.
-/

import Formula.Proofs.Contract
import Formula.Proofs.Vocabulary
import Formula.Proofs.Written

namespace Formula

/-- Holds of literals without a sign. -/
def Literal.Signless : Literal → Prop
  | integer value => 0 ≤ value.toInt
  | number value => value.SignClear
  | text _ => True

/-- The vocabulary of the language: literals have no sign, references have names, and operators are
those of their kind. -/
def Vocabulary.language : Vocabulary where
  literal := Literal.Signless
  reference := Reference.Named
  operator kind symbol := symbol ∈ kind.symbols

/-! ### What is read -/

theorem Binary64.ofRank_signClear (rank : Nat) : (ofRank false rank).SignClear := by
  unfold ofRank
  by_cases isFinite : rank < infinityRank
  · rw [dif_pos isFinite, SignClear]
  · rw [dif_neg isFinite, SignClear]

/-- Digits without a sign before them are no negative integer. -/
theorem Literal.integer?_nonneg {lexeme : String} (unsigned : (splitSign lexeme.toList).1 = false)
    {value : Int64} (read : integer? lexeme = some value) : 0 ≤ value.toInt := by
  unfold integer? at read
  simp only [unsigned, Bool.false_eq_true, if_false] at read
  split at read
  · split at read
    · rename_i bounds
      cases read
      have least : Int64.minValue.toInt = -2 ^ 63 := rfl
      have greatest : Int64.maxValue.toInt = 2 ^ 63 - 1 := rfl
      rw [Int64.toInt_ofInt_of_le (by omega) (by omega)]
      exact Int.natCast_nonneg _
    · cases read
  · cases read

/-- What spells a number is read as a literal without a sign. -/
theorem SpellsNumber.signless {lexeme : String} (spells : SpellsNumber lexeme.toList) :
    (Literal.ofLexeme lexeme).Signless := by
  have unsigned := spells.unsigned
  unfold Literal.ofLexeme Literal.ofLexeme?
  split
  · rename_i value read
    exact Literal.integer?_nonneg (congrArg Prod.fst unsigned) read
  · obtain ⟨decimal, read⟩ := Option.isSome_iff_exists.mp (Decimal.ofDigits?_isSome spells)
    simp only [Binary64.ofText?, unsigned, read]
    exact Binary64.ofRank_signClear _

theorem Rule.symbol_mem {rule : Rule} {operator : Operator} (member : operator ∈ rule.operators) :
    operator.symbol ∈ rule.kind.symbols := by
  refine List.mem_flatMap.mpr ⟨rule, ?_, List.mem_map_of_mem member⟩
  exact List.mem_filter.mpr ⟨mem_precedence rule, decide_eq_true rfl⟩

open Vocabulary (language)

/-- Holds of the values of a part of the grammar that are made of expressions of the language. -/
def Phrase.Within : (phrase : Phrase) → phrase.Value Expression → Prop
  | layers _, tree => tree.Within language
  | links rule _, rest => ∀ link ∈ rest, link.1 ∈ rule.kind.symbols ∧ link.2.Within language
  | names, segments => ∀ segment ∈ segments, IsName segment
  | call, values => ∀ argument ∈ values.getD [], argument.Within language
  | arguments, values => ∀ argument ∈ values, argument.Within language
  | moreArguments, values => ∀ argument ∈ values, argument.Within language

/-- A derivation with lawful tokens is worth what is made of expressions of the language. -/
theorem Derivation.tree_within {phrase : Phrase} (derivation : Derivation phrase)
    (lawful : ∀ token ∈ derivation.tokens, token.Lawful) : phrase.Within derivation.tree := by
  induction derivation with
  | number lexeme => exact .literal (lawful _ List.mem_cons_self).1.signless
  | text content => exact .literal trivial
  | reference first names call names_step call_step =>
    rw [tokens, List.forall_mem_cons, List.forall_mem_append] at lawful
    obtain ⟨first_lawful, names_lawful, call_lawful⟩ := lawful
    have named : Reference.Named ⟨first :: names.tree⟩ :=
      ⟨List.cons_ne_nil _ _, List.forall_mem_cons.mpr ⟨first_lawful, names_step names_lawful⟩⟩
    have each := call_step call_lawful
    show Expression.Within _ (tree (.reference first names call))
    rw [tree]
    generalize call.tree = values at each
    cases values with
    | none => exact .reference named
    | some arguments => exact .call named each
  | group inside step =>
    rw [tokens, List.forall_mem_cons, List.forall_mem_append] at lawful
    exact step lawful.2.1
  | chain binary first links first_step links_step =>
    rw [tokens, List.forall_mem_append] at lawful
    refine (first_step lawful.1).chain fun link inside => ?_
    have within := links_step lawful.2 link inside
    rw [binary] at within
    exact within
  | operated unary operator member operand step =>
    rw [tokens, List.forall_mem_cons] at lawful
    exact .unary (unary ▸ Rule.symbol_mem member) (step lawful.2)
  | bare unary operand step => exact step lawful
  | link operator member operand links operand_step links_step =>
    rw [tokens, List.forall_mem_cons, List.forall_mem_append] at lawful
    exact List.forall_mem_cons.mpr
      ⟨⟨Rule.symbol_mem member, operand_step lawful.2.1⟩, links_step lawful.2.2⟩
  | name letters names step =>
    rw [tokens, List.forall_mem_cons, List.forall_mem_cons] at lawful
    exact List.forall_mem_cons.mpr ⟨lawful.2.1, step lawful.2.2⟩
  | called arguments step =>
    rw [tokens, List.forall_mem_cons] at lawful
    exact step lawful.2
  | someArguments first more first_step more_step =>
    rw [tokens, List.forall_mem_append, List.forall_mem_append] at lawful
    exact List.forall_mem_cons.mpr ⟨first_step lawful.1, more_step lawful.2.1⟩
  | argument value more value_step more_step =>
    rw [tokens, List.forall_mem_cons, List.forall_mem_append] at lawful
    exact List.forall_mem_cons.mpr ⟨value_step lawful.2.1, more_step lawful.2.2⟩
  | lastLink | lastName | uncalled | noArguments | lastArgument => exact List.forall_mem_nil _

/-- All tokens of a text that is spelled by a derivation are lawful. -/
theorem Derivation.lawful {text : String} {options : Options} {phrase : Phrase}
    {derivation : Derivation phrase}
    (spells : (Lexing.ofText text options.comments).Spells derivation.tokens) :
    ∀ token ∈ derivation.tokens, token.Lawful := by
  obtain ⟨cursor, last, found, -, -, passes, -⟩ := spells.passes
  exact (Cursor.ofText?_lawful found).passed passes

/-- The tree of a text is an expression of the language. -/
theorem Expression.ofText?_within {text : String} {options : Options} {tree : Expression}
    (compiled : ofText? text options = .ok tree) : tree.Within language := by
  obtain ⟨derivation, spells, -, rfl⟩ := exists_derivation compiled
  exact derivation.tree_within (Derivation.lawful spells)

/-! ### What can be spelled -/

/-- Holds of the tokens that are spelled somehow. -/
def Token.Spellable (token : Token) : Prop :=
  ∃ spelling, token.SpelledBy spelling

/-- Tokens that can be spelled are those of a text: their spellings, with a blank after each. -/
theorem Writes.exists_text {tokens : List Token} (each : ∀ token ∈ tokens, token.Spellable) :
    ∃ text, Writes text tokens := by
  induction tokens with
  | nil => exact ⟨[], nothing⟩
  | cons token tokens step =>
    obtain ⟨⟨spelling, spells⟩, more⟩ := List.forall_mem_cons.mp each
    obtain ⟨text, writes⟩ := step more
    exact ⟨spelling ++ ' ' :: text, cons_clear spells (.of_isBlank rfl) writes.blank⟩

/-- So a derivation with such tokens spells a text, with comments or without. -/
theorem Derivation.exists_spells {phrase : Phrase} (derivation : Derivation phrase)
    (each : ∀ token ∈ derivation.tokens, token.Spellable) :
    ∃ text, ∀ comments, (Lexing.ofText text comments).Spells derivation.tokens := by
  obtain ⟨text, writes⟩ := Writes.exists_text each
  refine ⟨String.ofList text, fun comments => Writes.spells ?_ comments⟩
  rwa [String.toList_ofList]

theorem Token.operator_spellable (operator : Operator) : (Token.operator operator).Spellable :=
  ⟨operator.symbol.toList, rfl⟩

theorem Token.name_spellable {letters : String} (isName : IsName letters) :
    (Token.name letters).Spellable :=
  ⟨letters.toList, isName, rfl⟩

theorem Token.text_spellable (content : String) : (Token.text content).Spellable :=
  ⟨_, '"', List.mem_cons_self, _, Quotes.escaped_content content.toList, rfl⟩

namespace Expression

/-- Holds of an expression that has a derivation with tokens that can be spelled, and two levels of
nesting at most for each level of the tree. -/
def Spellable (expression : Expression) : Prop :=
  ∃ derivation : Derivation (.layers []), derivation.tree = expression ∧
    derivation.level ≤ 2 * expression.height ∧ ∀ token ∈ derivation.tokens, token.Spellable

/-- A number that is spelled out is read as some literal. -/
theorem spellable_of_lexeme {lexeme : String} {value : Literal}
    (spells : SpellsNumber lexeme.toList) (read : Literal.ofLexeme? lexeme = some value) :
    (literal value).Spellable := by
  refine ⟨.number lexeme, ?_, Nat.le_refl 0, List.forall_mem_singleton.mpr ⟨_, spells.spelledBy⟩⟩
  rw [Derivation.tree, Literal.ofLexeme, read]
  rfl

/-- A number too large for the format is read as the infinity. -/
theorem infinity_spellable : (literal (.number (.infinite false))).Spellable := by
  have whole : Digits ['1'] := ⟨List.cons_ne_nil _ _, List.all_eq_true.mp rfl⟩
  have powers : Digits ['9', '9', '9'] := ⟨List.cons_ne_nil _ _, List.all_eq_true.mp rfl⟩
  have spells : SpellsNumber "1e999".toList :=
    ⟨['1'], [], _, rfl, whole, .inl rfl, .inr ⟨[], _, by decide, powers, rfl⟩⟩
  exact spellable_of_lexeme spells (by decide +kernel)

theorem literal_spellable {value : Literal} (signless : value.Signless) :
    (literal value).Spellable := by
  cases value with
  | integer value =>
    exact spellable_of_lexeme (Literal.toString_spells signless)
      (Literal.ofLexeme?_toString signless)
  | text content =>
    exact ⟨.text content, rfl, Nat.le_refl 0,
      List.forall_mem_singleton.mpr (Token.text_spellable content)⟩
  | number value =>
    cases value with
    | nan => cases signless
    | infinite negative =>
      cases signless
      exact infinity_spellable
    | finite negative rank =>
      cases signless
      exact spellable_of_lexeme (Literal.canonical_shows rank).spells
        (Literal.ofLexeme?_canonical rank)

theorem names_spellable {names : List String} (each : ∀ name ∈ names, IsName name) :
    ∃ derivation : Derivation .names, derivation.tree = names ∧
      ∀ token ∈ derivation.tokens, token.Spellable := by
  induction names with
  | nil => exact ⟨.lastName, rfl, List.forall_mem_nil _⟩
  | cons name names step =>
    obtain ⟨isName, more⟩ := List.forall_mem_cons.mp each
    obtain ⟨derivation, rfl, spellable⟩ := step more
    refine ⟨.name name derivation, rfl, ?_⟩
    rw [Derivation.tokens, List.forall_mem_cons, List.forall_mem_cons]
    exact ⟨⟨['.'], rfl⟩, Token.name_spellable isName, spellable⟩

/-- The names of a reference are spelled with points between them. -/
theorem named_spellable {target : Reference} (named : target.Named) :
    ∃ first, ∃ names : Derivation .names, target = ⟨first :: names.tree⟩ ∧
      ∀ token ∈ Token.name first :: names.tokens, token.Spellable := by
  obtain ⟨segments⟩ := target
  obtain ⟨some_name, each⟩ := named
  obtain ⟨first, rest, rfl⟩ := List.exists_cons_of_ne_nil some_name
  obtain ⟨isName, more⟩ := List.forall_mem_cons.mp each
  obtain ⟨names, rfl, spellable⟩ := names_spellable more
  exact ⟨first, names, rfl, List.forall_mem_cons.mpr ⟨Token.name_spellable isName, spellable⟩⟩

theorem reference_spellable {target : Reference} (named : target.Named) :
    (reference target).Spellable := by
  obtain ⟨first, names, rfl, spellable⟩ := named_spellable named
  refine ⟨.reference first names .uncalled, rfl, Nat.zero_le _, ?_⟩
  rw [Derivation.tokens, Derivation.tokens, List.append_nil]
  exact spellable

/-- Each argument is one level deeper than the call, as each operand is in the tree. -/
theorem moreArguments_spellable {arguments : List Expression}
    (each : ∀ argument ∈ arguments, argument.Spellable) :
    ∃ derivation : Derivation .moreArguments, derivation.tree = arguments ∧
      derivation.level ≤ 2 * heightAll arguments ∧
        ∀ token ∈ derivation.tokens, token.Spellable := by
  induction arguments with
  | nil => exact ⟨.lastArgument, rfl, Nat.zero_le _, List.forall_mem_nil _⟩
  | cons argument arguments step =>
    obtain ⟨⟨operand, rfl, operand_level, operand_spellable⟩, rest⟩ := List.forall_mem_cons.mp each
    obtain ⟨more, rfl, more_level, more_spellable⟩ := step rest
    obtain ⟨derivation, tokens, tree, level⟩ := operand.exists_argument more
    refine ⟨derivation, tree, ?_, ?_⟩
    · rw [level, heightAll]
      omega
    · rw [tokens, List.forall_mem_cons, List.forall_mem_append]
      exact ⟨⟨[','], rfl⟩, operand_spellable, more_spellable⟩

theorem arguments_spellable {arguments : List Expression}
    (each : ∀ argument ∈ arguments, argument.Spellable) :
    ∃ derivation : Derivation .arguments, derivation.tree = arguments ∧
      derivation.level ≤ 2 * heightAll arguments ∧
        ∀ token ∈ derivation.tokens, token.Spellable := by
  have close : Token.closeParen.Spellable := ⟨[')'], rfl⟩
  cases arguments with
  | nil => exact ⟨.noArguments, rfl, Nat.zero_le _, List.forall_mem_singleton.mpr close⟩
  | cons argument arguments =>
    obtain ⟨⟨operand, rfl, operand_level, operand_spellable⟩, rest⟩ := List.forall_mem_cons.mp each
    obtain ⟨more, rfl, more_level, more_spellable⟩ := moreArguments_spellable rest
    obtain ⟨derivation, tokens, tree, level⟩ := operand.exists_someArguments more
    refine ⟨derivation, tree, ?_, ?_⟩
    · rw [level, heightAll]
      omega
    · rw [tokens, List.forall_mem_append, List.forall_mem_append]
      exact ⟨operand_spellable, more_spellable, List.forall_mem_singleton.mpr close⟩

theorem call_spellable {function : Reference} {arguments : List Expression}
    (named : function.Named) (each : ∀ argument ∈ arguments, argument.Spellable) :
    (call function arguments).Spellable := by
  obtain ⟨first, names, rfl, name_spellable⟩ := named_spellable named
  obtain ⟨inside, rfl, level, inside_spellable⟩ := arguments_spellable each
  refine ⟨.reference first names (.called inside), rfl, level, ?_⟩
  rw [Derivation.tokens, ← List.cons_append]
  refine List.forall_mem_append.mpr ⟨name_spellable, ?_⟩
  exact List.forall_mem_cons.mpr ⟨⟨['('], rfl⟩, inside_spellable⟩

theorem unary_spellable {operator : String} {operand : Expression}
    (known : operator ∈ Kind.unary.symbols) (inside : operand.Spellable) :
    (unary operator operand).Spellable := by
  obtain ⟨rule, which, isUnary, member, rfl⟩ := Kind.mem_symbols known
  obtain ⟨inner, rfl, inner_level, spellable⟩ := inside
  obtain ⟨derivation, tokens, tree, level⟩ := inner.exists_operated isUnary member
  refine ⟨derivation, tree, ?_, ?_⟩
  · rw [level, height]
    omega
  · simp only [tokens, List.forall_mem_cons, List.forall_mem_append]
    exact ⟨⟨['('], rfl⟩, ⟨Token.operator_spellable which, spellable⟩, ⟨[')'], rfl⟩,
      List.forall_mem_nil _⟩

theorem binary_spellable {operator : String} {left right : Expression}
    (known : operator ∈ Kind.binary.symbols) (before : left.Spellable) (after : right.Spellable) :
    (binary operator left right).Spellable := by
  obtain ⟨rule, which, isBinary, member, rfl⟩ := Kind.mem_symbols known
  obtain ⟨first, rfl, first_level, first_spellable⟩ := before
  obtain ⟨second, rfl, second_level, second_spellable⟩ := after
  obtain ⟨derivation, tokens, tree, level⟩ := first.exists_linked isBinary member second
  refine ⟨derivation, tree, ?_, ?_⟩
  · rw [level, height]
    omega
  · simp only [tokens, List.forall_mem_cons, List.forall_mem_append]
    exact ⟨⟨['('], rfl⟩, ⟨first_spellable, Token.operator_spellable which, second_spellable⟩,
      ⟨[')'], rfl⟩, List.forall_mem_nil _⟩

/-- Every expression of the language can be spelled. -/
theorem Within.spellable {expression : Expression} (within : expression.Within language) :
    expression.Spellable := by
  induction within with
  | literal known => exact literal_spellable known
  | reference known => exact reference_spellable known
  | call known _ each => exact call_spellable known each
  | unary known _ inside => exact unary_spellable known inside
  | binary known _ _ before after => exact binary_spellable known before after

/-- An expression of the language is the tree of a text, with comments or without, and two levels of
nesting for each level of the tree are enough. -/
theorem Within.exists_text {expression : Expression} (within : expression.Within language) :
    ∃ text, ∀ options : Options, 1 + 2 * expression.height ≤ options.depthLimit →
      ofText? text options = .ok expression := by
  obtain ⟨inside, rfl, level, spellable⟩ := within.spellable
  obtain ⟨derivation, tokens, tree, same_level⟩ := inside.exists_alone Rule.precedence
  obtain ⟨text, spells⟩ := derivation.exists_spells (tokens ▸ spellable)
  refine ⟨text, fun options enough => ?_⟩
  have nesting : derivation.nesting ≤ options.depthLimit := by
    rw [Derivation.nesting, same_level]
    omega
  rw [ofText?_of_derivation (spells options.comments) nesting, tree]

/-- **The trees of texts are the expressions of the language.** An expression that is not too high
is the tree of some text, with comments or without and with a limit of sixty-four bits, if and only
if its integers are not negative, its numbers have a clear sign bit, its references are names, and
its operators are those of their kind. -/
theorem exists_text_iff (expression : Expression) (high : expression.height < 2 ^ 62) :
    (∃ (text : String) (options : Options), options.depthLimit < 2 ^ 64 ∧
      ofText? text options = .ok expression) ↔ expression.Within language := by
  constructor
  · rintro ⟨text, options, -, compiled⟩
    exact ofText?_within compiled
  · intro within
    obtain ⟨text, compiled⟩ := within.exists_text
    have enough : 1 + 2 * expression.height ≤ 2 ^ 64 - 1 := by omega
    exact ⟨text, ⟨true, 2 ^ 64 - 1⟩, by decide, compiled _ enough⟩

/-- A call with the infinity and a negated text as its arguments is the tree of some text; a
negative integer is the tree of none. -/
theorem exists_text_call :
    let root : Expression := .call ⟨["f"]⟩
      [.literal (.number (.infinite false)), .unary "not" (.literal (.text "\"#\n"))]
    (root.height < 2 ^ 62 ∧ ∃ (text : String) (options : Options), options.depthLimit < 2 ^ 64 ∧
        ofText? text options = .ok root) ∧
      (literal (.integer (-1))).height < 2 ^ 62 ∧
        ¬ ∃ (text : String) (options : Options), options.depthLimit < 2 ^ 64 ∧
          ofText? text options = .ok (.literal (.integer (-1))) := by
  intro root
  have high : root.height < 2 ^ 62 := by decide
  have low : (literal (.integer (-1))).height < 2 ^ 62 := by decide
  refine ⟨⟨high, (exists_text_iff root high).mpr ?_⟩, low, fun compiled => ?_⟩
  · have named : Reference.Named ⟨["f"]⟩ := by decide
    have negated : "not" ∈ Kind.unary.symbols := by decide
    refine .call named (List.forall_mem_cons.mpr ⟨?_, List.forall_mem_singleton.mpr ?_⟩)
    · exact .literal (Eq.refl false)
    · exact .unary negated (.literal trivial)
  · cases (exists_text_iff _ low).mp compiled with
    | literal known => exact absurd known (show ¬ (0 : Int) ≤ Int64.toInt (-1) by decide)

end Expression

end Formula
