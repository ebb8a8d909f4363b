/-
**A part of an expression, and what is around it.**

What is around a part of an expression is a derivation with a hole in it. There is one constructor
for each place where a part of the grammar stands in another one, so every occurrence of a part in
an expression is a hole that the part fills.

* `Hole.fill_tokens`: the tokens of the part stand between those before and those after the hole.
* `Hole.fill_level`: a part that is one level deeper makes the whole one level deeper at most.
* `Hole.fill_build`: parts that a builder makes the same of may be put for each other.
* `Hole.suffix`: within an expression, a part has the tightest of all layers, from some layer on.
-/

import Formula.Proofs.Build

namespace Formula

/-- A derivation in which one part is missing. -/
inductive Hole (inner : Phrase) : Phrase → Type
  | here : Hole inner inner
  | reference (first : String) (names : Derivation .names) (call : Hole inner .call) :
    Hole inner (.layers [])
  | group (inside : Hole inner .expression) : Hole inner (.layers [])
  | chainFirst {rule : Rule} {tighter : List Rule} (isBinary : rule.kind = .binary)
    (first : Hole inner (.layers tighter)) (links : Derivation (.links rule tighter)) :
    Hole inner (.layers (rule :: tighter))
  | chainLinks {rule : Rule} {tighter : List Rule} (isBinary : rule.kind = .binary)
    (first : Derivation (.layers tighter)) (links : Hole inner (.links rule tighter)) :
    Hole inner (.layers (rule :: tighter))
  | operated {rule : Rule} {tighter : List Rule} (isUnary : rule.kind = .unary)
    (operator : Operator) (member : operator ∈ rule.operators)
    (operand : Hole inner (.layers (rule :: tighter))) : Hole inner (.layers (rule :: tighter))
  | bare {rule : Rule} {tighter : List Rule} (isUnary : rule.kind = .unary)
    (operand : Hole inner (.layers tighter)) : Hole inner (.layers (rule :: tighter))
  | linkOperand {rule : Rule} {tighter : List Rule} (operator : Operator)
    (member : operator ∈ rule.operators) (operand : Hole inner (.layers tighter))
    (links : Derivation (.links rule tighter)) : Hole inner (.links rule tighter)
  | linkLinks {rule : Rule} {tighter : List Rule} (operator : Operator)
    (member : operator ∈ rule.operators) (operand : Derivation (.layers tighter))
    (links : Hole inner (.links rule tighter)) : Hole inner (.links rule tighter)
  | called (arguments : Hole inner .arguments) : Hole inner .call
  | argumentsFirst (first : Hole inner .expression) (more : Derivation .moreArguments) :
    Hole inner .arguments
  | argumentsMore (first : Derivation .expression) (more : Hole inner .moreArguments) :
    Hole inner .arguments
  | argumentValue (value : Hole inner .expression) (more : Derivation .moreArguments) :
    Hole inner .moreArguments
  | argumentMore (value : Derivation .expression) (more : Hole inner .moreArguments) :
    Hole inner .moreArguments

/-- Holds of the parts of the grammar whose layers are the tightest ones, from some layer on. -/
def Phrase.Tight : Phrase → Prop
  | layers rules => rules <:+ Rule.precedence
  | links rule tighter => rule :: tighter <:+ Rule.precedence
  | names | call | arguments | moreArguments => True

namespace Hole

variable {inner outer : Phrase}

/-- The derivation with a part put into the hole. -/
@[simp]
def fill (part : Derivation inner) {outer : Phrase} : Hole inner outer → Derivation outer
  | here => part
  | reference first names call => .reference first names (call.fill part)
  | group inside => .group (inside.fill part)
  | chainFirst isBinary first links => .chain isBinary (first.fill part) links
  | chainLinks isBinary first links => .chain isBinary first (links.fill part)
  | operated isUnary operator member operand =>
    .operated isUnary operator member (operand.fill part)
  | bare isUnary operand => .bare isUnary (operand.fill part)
  | linkOperand operator member operand links => .link operator member (operand.fill part) links
  | linkLinks operator member operand links => .link operator member operand (links.fill part)
  | called arguments => .called (arguments.fill part)
  | argumentsFirst first more => .someArguments (first.fill part) more
  | argumentsMore first more => .someArguments first (more.fill part)
  | argumentValue value more => .argument (value.fill part) more
  | argumentMore value more => .argument value (more.fill part)

/-- The tokens before the hole. -/
@[simp]
def before {outer : Phrase} : Hole inner outer → List Token
  | here => []
  | reference first names call => .name first :: (names.tokens ++ call.before)
  | group inside => .openParen :: inside.before
  | chainFirst _ first _ => first.before
  | chainLinks _ first links => first.tokens ++ links.before
  | operated _ operator _ operand => .operator operator :: operand.before
  | bare _ operand => operand.before
  | linkOperand operator _ operand _ => .operator operator :: operand.before
  | linkLinks operator _ operand links => .operator operator :: (operand.tokens ++ links.before)
  | called arguments => .openParen :: arguments.before
  | argumentsFirst first _ => first.before
  | argumentsMore first more => first.tokens ++ more.before
  | argumentValue value _ => .comma :: value.before
  | argumentMore value more => .comma :: (value.tokens ++ more.before)

/-- The tokens after the hole. -/
@[simp]
def after {outer : Phrase} : Hole inner outer → List Token
  | here => []
  | reference _ _ call => call.after
  | group inside => inside.after ++ [.closeParen]
  | chainFirst _ first links => first.after ++ links.tokens
  | chainLinks _ _ links => links.after
  | operated _ _ _ operand => operand.after
  | bare _ operand => operand.after
  | linkOperand _ _ operand links => operand.after ++ links.tokens
  | linkLinks _ _ _ links => links.after
  | called arguments => arguments.after
  | argumentsFirst first more => first.after ++ (more.tokens ++ [.closeParen])
  | argumentsMore _ more => more.after ++ [.closeParen]
  | argumentValue value more => value.after ++ more.tokens
  | argumentMore _ more => more.after

/-- The tokens of a part stand between those before the hole and those after it. -/
theorem fill_tokens (hole : Hole inner outer) (part : Derivation inner) :
    (hole.fill part).tokens = hole.before ++ (part.tokens ++ hole.after) := by
  induction hole with
  | here => simp
  | _ => simp [*]

/-- If one part goes down one level more than another one, so do at most what they are parts of. -/
theorem fill_level (hole : Hole inner outer) {part other : Derivation inner}
    (deeper : other.level ≤ part.level + 1) :
    (hole.fill other).level ≤ (hole.fill part).level + 1 := by
  induction hole with
  | here => exact deeper
  | _ =>
    simp only [fill, Derivation.level]
    omega

/-- If a builder makes the same of two parts, it makes the same of what they are parts of. -/
theorem fill_build {κ ε α : Type} (builder : Builder κ ε α) (hole : Hole inner outer)
    {part other : Derivation inner} (same : other.build builder = part.build builder) :
    (hole.fill other).build builder = (hole.fill part).build builder := by
  induction hole with
  | here => exact same
  | _ => simp only [fill, Derivation.build, *]

theorem tight (hole : Hole inner outer) (outside : outer.Tight) : inner.Tight := by
  induction hole with
  | here => exact outside
  | group inside step => exact step (List.suffix_refl _)
  | chainFirst binary first links step => exact step ((List.suffix_cons _ _).trans outside)
  | chainLinks binary first links step => exact step outside
  | operated unary operator member operand step => exact step outside
  | bare unary operand step => exact step ((List.suffix_cons _ _).trans outside)
  | linkOperand operator member operand links step =>
    exact step ((List.suffix_cons _ _).trans outside)
  | linkLinks operator member operand links step => exact step outside
  | reference first names call step | called arguments step => exact step trivial
  | argumentsFirst first more step | argumentValue value more step =>
    exact step (List.suffix_refl _)
  | argumentsMore first more step | argumentMore value more step => exact step trivial

/-- Within an expression, a part has the tightest of all layers, from some layer on. -/
theorem suffix {rules : List Rule} (hole : Hole (.layers rules) .expression) :
    rules <:+ Rule.precedence :=
  hole.tight (List.suffix_refl _)

end Hole

end Formula
