/-
**Builders: what an expression becomes.**

A builder gives a value to every part of an expression, given the values of the parts inside. It may
read and change a context and may fail. `Builder.handler` answers the requests of a parse with a
builder: literals are read, a chain is folded from the left one operator at a time, and groups and
layers that matched one operand alone add nothing.

Three families of defaults are provided: trees, their canonical text, and no defaults at all, for
builders that have to say everything themselves.
-/

import Formula.Dialogue
import Formula.Expression

namespace Formula

/-- Gives values of type `α` to the parts of an expression, in a context of type `κ`. -/
structure Builder (κ ε α : Type) where
  ofError : Error → ε
  literal : Literal → Action κ ε α
  reference : Reference → Action κ ε α
  operator : String → α → α → Action κ ε α
  unary : String → α → Action κ ε α
  call : Reference → List α → Action κ ε α
  finish : α → Action κ ε α

namespace Builder

variable {κ ε α : Type}

/-! ### Defaults -/

/-- Builds the tree of an expression. -/
def tree (ofError : Error → ε) : Builder κ ε Expression where
  ofError := ofError
  literal value := pure (.literal value)
  reference target := pure (.reference target)
  operator symbol left right := pure (.binary symbol left right)
  unary symbol operand := pure (.unary symbol operand)
  call function arguments := pure (.call function arguments)
  finish := pure

/-- Builds the canonical text of an expression. -/
def canonicalText (ofError : Error → ε) : Builder κ ε String where
  ofError := ofError
  literal value := pure value.display
  reference target := pure target.name
  operator symbol left right := pure (Expression.binaryText symbol left right)
  unary symbol operand := pure (Expression.unaryText symbol operand)
  call function arguments := pure (Expression.callText function arguments)
  finish := pure

/-- Builds nothing: every part fails as missing. -/
def missing (ofError : Error → ε) : Builder κ ε α where
  ofError := ofError
  literal _ := throw (ofError (.internal (.missing .literal)))
  reference _ := throw (ofError (.internal (.missing .reference)))
  operator _ _ _ := throw (ofError (.internal (.missing .operator)))
  unary _ _ := throw (ofError (.internal (.missing .unary)))
  call _ _ := throw (ofError (.internal (.missing .call)))
  finish := pure

/-! ### Answers -/

/-- Fails with an error of the library. -/
def fail {β : Type} (builder : Builder κ ε α) (error : Error) : Action κ ε β :=
  throw (builder.ofError error)

/-- The value of a number lexeme. -/
def number (builder : Builder κ ε α) (lexeme : String) : Action κ ε α :=
  match Literal.ofLexeme? lexeme with
  | some value => builder.literal value
  | none => builder.fail (.unreadableNumber lexeme)

/-- The reference with the given segments; there must be one. -/
def refer (builder : Builder κ ε α) (segments : List String) : Action κ ε Reference :=
  if segments.isEmpty then builder.fail (.internal .emptyReference) else pure ⟨segments⟩

/-- The value of an operand without operators of its own. -/
def atom (builder : Builder κ ε α) : Atom α → Action κ ε α
  | .literal value => pure value
  | .reference target none => builder.reference target
  | .reference function (some arguments) => builder.call function arguments
  | .group value => pure value

/-- The value of a chain, operator by operator from the left. -/
def chain (builder : Builder κ ε α) (first : α) (rest : List (String × α)) : Action κ ε α :=
  rest.foldlM (fun left (symbol, right) => builder.operator symbol left right) first

theorem chain_cons (builder : Builder κ ε α) (first : α) (symbol : String) (right : α)
    (rest : List (String × α)) :
    builder.chain first ((symbol, right) :: rest) =
      builder.operator symbol first right >>= fun left => builder.chain left rest :=
  rfl

/-- The value of what a layer matched. A chain belongs to a binary layer and an operator before its
operand to a unary one. -/
def reduce (builder : Builder κ ε α) (rule : Rule) (reduction : Reduction α) : Action κ ε α :=
  match rule.kind, reduction with
  | _, .passthrough operand => pure operand
  | .binary, .binary first rest => builder.chain first rest
  | .unary, .unary symbol operand => builder.unary symbol operand
  | _, reduction => builder.fail (.internal (.mismatch rule reduction.shape))

/-- Answers the requests of a parse. -/
def handler (builder : Builder κ ε α) : Handler κ ε α where
  ofError := builder.ofError
  answer
    | .number lexeme => builder.number lexeme
    | .text content => builder.literal (.text content)
    | .reference segments => builder.refer segments
    | .atom atom => builder.atom atom
    | .reduce rule reduction => builder.reduce rule reduction

end Builder

end Formula
