/-
**The grammar, and what it derives.**

A derivation is a tree with one node for each use of a production, so the grammar is the list of the
constructors of `Derivation`:

    layers []         = NUMBER | TEXT | NAME names call | ( expression )
    layers (r :: rs)  = layers rs links(r, rs)                  r a binary layer
                      | operator(r) layers (r :: rs)            r a unary layer
                      | layers rs                               r a unary layer
    links(r, rs)      = nothing | operator(r) layers rs links(r, rs)
    names             = nothing | . NAME names
    call              = nothing | ( arguments
    arguments         = ) | expression moreArguments )
    moreArguments     = nothing | , expression moreArguments

where an expression is `layers Rule.precedence`. A repetition is derived from its first turn on, the
way it is read. The layers and their operators are listed apart from the tables of the parser, which
are proved to be that list.

* `layerTable`, `Rule.precedence_table`: the layers of operators, loosest first.
* `Derivation.tokens`, `Derivation.tree`, `Derivation.nesting`: what a derivation spells, the tree
  it stands for, and how many levels deep it is.
* `Derivation.perform`: the requests of a derivation, in order, with any way to answer them.
-/

import Formula.Builder

namespace Formula

/-! ### Layers -/

/-- The layers of operators, from the loosest to the tightest: the name of each, how its operators
stand to their operands, and what they are written as. -/
def layerTable : List (String × Kind × List String) :=
  [("logical_or", .binary, ["or"]),
    ("logical_and", .binary, ["and"]),
    ("logical_not", .unary, ["not"]),
    ("comparison", .binary, ["==", "!=", "<", "<=", ">", ">="]),
    ("bitwise_or", .binary, ["|"]),
    ("bitwise_and", .binary, ["&"]),
    ("arith_term", .binary, ["+", "-"]),
    ("arith_factor", .binary, ["*", "/", "%"]),
    ("sign", .unary, ["-", "+", "~"])]

/-- The layers that are read, in this order and with these operators, are those of the grammar. -/
theorem Rule.precedence_table :
    Rule.precedence.map (fun rule => (rule.name, rule.kind, rule.operators.map Operator.symbol)) =
      layerTable :=
  rfl

/-! ### Derivations -/

/-- The parts of the grammar. -/
inductive Phrase
  | layers (rules : List Rule)
  | links (rule : Rule) (tighter : List Rule)
  | names
  | call
  | arguments
  | moreArguments

/-- An expression has all layers. -/
abbrev Phrase.expression : Phrase :=
  .layers Rule.precedence

/-- A derivation of a part of the grammar. -/
inductive Derivation : Phrase → Type
  | number (lexeme : String) : Derivation (.layers [])
  | text (content : String) : Derivation (.layers [])
  | reference (first : String) (names : Derivation .names) (call : Derivation .call) :
    Derivation (.layers [])
  | group (inside : Derivation .expression) : Derivation (.layers [])
  | chain {rule : Rule} {tighter : List Rule} (isBinary : rule.kind = .binary)
    (first : Derivation (.layers tighter)) (links : Derivation (.links rule tighter)) :
    Derivation (.layers (rule :: tighter))
  | operated {rule : Rule} {tighter : List Rule} (isUnary : rule.kind = .unary)
    (operator : Operator) (member : operator ∈ rule.operators)
    (operand : Derivation (.layers (rule :: tighter))) : Derivation (.layers (rule :: tighter))
  | bare {rule : Rule} {tighter : List Rule} (isUnary : rule.kind = .unary)
    (operand : Derivation (.layers tighter)) : Derivation (.layers (rule :: tighter))
  | lastLink {rule : Rule} {tighter : List Rule} : Derivation (.links rule tighter)
  | link {rule : Rule} {tighter : List Rule} (operator : Operator)
    (member : operator ∈ rule.operators) (operand : Derivation (.layers tighter))
    (links : Derivation (.links rule tighter)) : Derivation (.links rule tighter)
  | lastName : Derivation .names
  | name (letters : String) (names : Derivation .names) : Derivation .names
  | uncalled : Derivation .call
  | called (arguments : Derivation .arguments) : Derivation .call
  | noArguments : Derivation .arguments
  | someArguments (first : Derivation .expression) (more : Derivation .moreArguments) :
    Derivation .arguments
  | lastArgument : Derivation .moreArguments
  | argument (value : Derivation .expression) (more : Derivation .moreArguments) :
    Derivation .moreArguments

/-- What a part of the grammar is worth, where an expression is worth an `α`. -/
abbrev Phrase.Value (α : Type) : Phrase → Type
  | layers _ => α
  | links _ _ => List (String × α)
  | names => List String
  | call => Option (List α)
  | arguments => List α
  | moreArguments => List α

/-- The literal that a number lexeme is read as. The numbers of a text can all be read; a lexeme
that cannot is taken as it stands. -/
def Literal.ofLexeme (lexeme : String) : Literal :=
  (ofLexeme? lexeme).getD (text lexeme)

namespace Derivation

/-- An operand alone, as an expression of any layers. -/
def alone (operand : Derivation (.layers [])) : (rules : List Rule) → Derivation (.layers rules)
  | [] => operand
  | rule :: tighter =>
    match kind : rule.kind with
    | .binary => chain kind (alone operand tighter) lastLink
    | .unary => bare kind (alone operand tighter)

/-- The tokens that a derivation spells. -/
@[simp]
def tokens {phrase : Phrase} : Derivation phrase → List Token
  | number lexeme => [.number lexeme]
  | text content => [.text content]
  | reference first names call => .name first :: (names.tokens ++ call.tokens)
  | group inside => .openParen :: (inside.tokens ++ [.closeParen])
  | chain _ first links => first.tokens ++ links.tokens
  | operated _ operator _ operand => .operator operator :: operand.tokens
  | bare _ operand => operand.tokens
  | lastLink => []
  | link operator _ operand links => .operator operator :: (operand.tokens ++ links.tokens)
  | lastName => []
  | name letters names => .dot :: .name letters :: names.tokens
  | uncalled => []
  | called arguments => .openParen :: arguments.tokens
  | noArguments => [.closeParen]
  | someArguments first more => first.tokens ++ (more.tokens ++ [.closeParen])
  | lastArgument => []
  | argument value more => .comma :: (value.tokens ++ more.tokens)

/-- The tree that a derivation stands for: a chain leans to the left, and parentheses leave no
trace. -/
@[simp]
def tree {phrase : Phrase} : Derivation phrase → phrase.Value Expression
  | number lexeme => .literal (.ofLexeme lexeme)
  | text content => .literal (.text content)
  | reference first names call =>
    match call.tree with
    | none => .reference ⟨first :: names.tree⟩
    | some arguments => .call ⟨first :: names.tree⟩ arguments
  | group inside => inside.tree
  | chain _ first links =>
    links.tree.foldl (fun left (symbol, right) => .binary symbol left right) first.tree
  | operated _ operator _ operand => .unary operator.symbol operand.tree
  | bare _ operand => operand.tree
  | lastLink => []
  | link operator _ operand links => (operator.symbol, operand.tree) :: links.tree
  | lastName => []
  | name letters names => letters :: names.tree
  | uncalled => none
  | called arguments => some arguments.tree
  | noArguments => []
  | someArguments first more => first.tree :: more.tree
  | lastArgument => []
  | argument value more => value.tree :: more.tree

/-- How many levels a derivation goes down: an expression in parentheses, an argument, and the
operand of an operator before it are one level deeper than what holds them. -/
@[simp]
def level {phrase : Phrase} : Derivation phrase → Nat
  | number _ | text _ => 0
  | reference _ _ call => call.level
  | group inside => inside.level + 1
  | chain _ first links => max first.level links.level
  | operated _ _ _ operand => operand.level + 1
  | bare _ operand => operand.level
  | link _ _ operand links => max operand.level links.level
  | called arguments => arguments.level
  | someArguments first more => max (first.level + 1) more.level
  | argument value more => max (value.level + 1) more.level
  | lastLink | lastName | name _ _ | uncalled | noArguments | lastArgument => 0

theorem level_names (names : Derivation .names) : names.level = 0 := by
  cases names <;> rfl

/-- The nesting of an expression, which is itself at level one. -/
def nesting (derivation : Derivation .expression) : Nat :=
  derivation.level + 1

/-- Makes the requests of a derivation in order, children before parents, with some way to answer
them. -/
@[simp]
def perform {m : Type → Type} [Monad m] {α : Type}
    (answer : (request : Request α) → m request.Answer) {phrase : Phrase} :
    Derivation phrase → m (phrase.Value α)
  | number lexeme => do
    let value ← answer (.number lexeme)
    answer (.atom (.literal value))
  | text content => do
    let value ← answer (.text content)
    answer (.atom (.literal value))
  | reference first names call => do
    let names ← names.perform answer
    let reference ← answer (.reference (first :: names))
    let arguments ← call.perform answer
    answer (.atom (.reference reference arguments))
  | group inside => do
    let value ← inside.perform answer
    answer (.atom (.group value))
  | @chain rule _ _ first links => do
    let first ← first.perform answer
    let rest ← links.perform answer
    answer (.reduce rule (.binary first rest))
  | @operated rule _ _ operator _ operand => do
    let operand ← operand.perform answer
    answer (.reduce rule (.unary operator.symbol operand))
  | @bare rule _ _ operand => do
    let operand ← operand.perform answer
    answer (.reduce rule (.passthrough operand))
  | lastLink => pure []
  | link operator _ operand links => do
    let value ← operand.perform answer
    let rest ← links.perform answer
    pure ((operator.symbol, value) :: rest)
  | lastName => pure []
  | name letters names => do
    let rest ← names.perform answer
    pure (letters :: rest)
  | uncalled => pure none
  | called arguments => do
    let values ← arguments.perform answer
    pure (some values)
  | noArguments => pure []
  | someArguments first more => do
    let first ← first.perform answer
    let rest ← more.perform answer
    pure (first :: rest)
  | lastArgument => pure []
  | argument value more => do
    let value ← value.perform answer
    let rest ← more.perform answer
    pure (value :: rest)

end Derivation

end Formula
