/-
**Reading expressions.**

The grammar, loosest layer first, where a binary layer is a chain and a unary layer a run:

    expression  = disjunction
    disjunction = conjunction { or conjunction }
    conjunction = negation { and negation }
    negation    = not negation | comparison
    comparison  = bitOr { (== | != | < | <= | > | >=) bitOr }
    bitOr       = bitAnd { | bitAnd }
    bitAnd      = sum { & sum }
    sum         = product { (+ | -) product }
    product     = sign { (* | / | %) sign }
    sign        = (- | + | ~) sign | atom
    atom        = number | text | reference [ arguments ] | ( expression )
    reference   = name { . name }
    arguments   = ( [ expression { , expression } ] )

All layers are read by one function, `Parser.layers`, which walks down a list of rules. Reading goes
one token at a time: an operator is passed over before its operand is looked at, and the first token
that fits nowhere, or the first piece of text that is no token, ends the parse.

Every expression, and every operand of an operator before it, is one level deeper than what holds
it. The number of levels is limited; `Parser.nested` recurses on the number of levels left.
-/

import Formula.Dialogue

namespace Formula

namespace Parser

variable {α β : Type}

/-! ### The cursor -/

/-- Passes over the token at the cursor. If what follows cannot be read, the token is kept. -/
def advance : Parser α Unit :=
  fun cursor =>
    match cursor.tape.next with
    | (⟨start, .ok token⟩, tape) => .done { cursor with token, start, tape } (.ok ())
    | (⟨_, .error error⟩, tape) => .done { cursor with tape } (.error error)

/-- Passes over the token at the cursor and gives it up: if what follows cannot be read, the cursor
is left as at the end of the input. -/
def consume : Parser α Unit := do
  move fun cursor => { cursor with token := .endOfInput }
  advance

/-- Refuses the token at the cursor. -/
def unexpected (expected : Expected) : Parser α β := do
  let cursor ← cursor
  match cursor.token with
  | .endOfInput => refuse ⟨.unexpectedEnd expected, cursor.start⟩
  | found => refuse ⟨.unexpectedToken found expected, cursor.start⟩

/-- Passes over a token that must be there. -/
def expect (token : Token) (expected : Expected) : Parser α Unit := do
  if (← cursor).token = token then advance else unexpected expected

/-- Passes over an operator of a layer, if one is there. -/
def operator? (rule : Rule) : Parser α (Option Operator) := do
  match (← cursor).token with
  | .operator operator =>
    if operator ∈ rule.operators then
      advance
      pure (some operator)
    else pure none
  | _ => pure none

/-- As many items as there are readings still to come. They bound every loop, since each turn passes
over a token. -/
def ahead : Parser α (List Scanned) := do
  let tape := (← cursor).tape
  return tape.last :: tape.items

/-! ### Operands -/

/-- Reads the names after the dots of a reference, given those before, latest first. -/
def names (bound : List Scanned) (before : List String) : Parser α (List String) := do
  match bound with
  | [] => return before.reverse
  | _ :: bound =>
    if (← cursor).token = .dot then
      advance
      match (← cursor).token with
      | .name letters =>
        consume
        names bound (letters :: before)
      | _ => unexpected .segment
    else return before.reverse

/-- Reads the arguments of a call after the first, given those before, latest first. -/
def moreArguments (expression : Parser α α) (bound : List Scanned) (before : List α) :
    Parser α (List α) := do
  match bound with
  | [] => return before.reverse
  | _ :: bound =>
    if (← cursor).token = .comma then
      advance
      let argument ← expression
      moreArguments expression bound (argument :: before)
    else return before.reverse

/-- Reads the arguments of a call, after its opening parenthesis. -/
def arguments (expression : Parser α α) : Parser α (List α) := do
  let values ←
    if (← cursor).token = .closeParen then pure []
    else do
      let first ← expression
      moreArguments expression (← ahead) [first]
  expect .closeParen .separatorOrClosing
  return values

/-- Reads the arguments of a call if a parenthesis opens here. -/
def arguments? (expression : Parser α α) : Parser α (Option (List α)) := do
  if (← cursor).token = .openParen then
    advance
    return some (← arguments expression)
  else return none

/-- Reads an operand without operators of its own. -/
def atom (expression : Parser α α) : Parser α α := do
  match (← cursor).token with
  | .number lexeme =>
    consume
    let value ← ask (.number lexeme)
    ask (.atom (.literal value))
  | .text content =>
    consume
    let value ← ask (.text content)
    ask (.atom (.literal value))
  | .name first =>
    consume
    let segments ← names (← ahead) [first]
    let reference ← ask (.reference segments)
    let arguments ← arguments? expression
    ask (.atom (.reference reference arguments))
  | .openParen =>
    consume
    let value ← expression
    expect .closeParen .closing
    ask (.atom (.group value))
  | _ => unexpected .expression

/-! ### Layers -/

/-- Reads the operators and operands of a chain after its first operand, given those before, latest
first. -/
def chain (rule : Rule) (operand : Parser α α) (bound : List Scanned)
    (before : List (String × α)) : Parser α (List (String × α)) := do
  match bound with
  | [] => return before.reverse
  | _ :: bound =>
    match ← operator? rule with
    | some operator =>
      let value ← operand
      chain rule operand bound ((operator.symbol, value) :: before)
    | none => return before.reverse

/-- Reads an expression of the given layers. What stands one level deeper is read by `deeper`, which
is told the layers it is to read. -/
def layers (deeper : List Rule → Parser α α) : List Rule → Parser α α
  | [] => atom (deeper Rule.precedence)
  | rule :: tighter =>
    match rule.kind with
    | .binary => do
      let first ← layers deeper tighter
      let rest ← chain rule (layers deeper tighter) (← ahead) []
      ask (.reduce rule (.binary first rest))
    | .unary => do
      match ← operator? rule with
      | some operator =>
        let operand ← deeper (rule :: tighter)
        ask (.reduce rule (.unary operator.symbol operand))
      | none =>
        let operand ← layers deeper tighter
        ask (.reduce rule (.passthrough operand))

/-! ### Nesting -/

/-- Reads an expression of the given layers one level deeper, with room for so many levels within
the limit. A failure inside leaves the depth as it was there. -/
def nested (limit : Nat) : Nat → List Rule → Parser α α
  | 0 => fun _ => do refuse ⟨.nestingTooDeep limit, (← cursor).start⟩
  | room + 1 => fun rules => do
    move fun cursor => { cursor with depth := cursor.depth + 1 }
    let value ← layers (nested limit room) rules
    move fun cursor => { cursor with depth := cursor.depth - 1 }
    return value

/-- Reads an expression as deep as the limit leaves room for. -/
def expression (limit : Nat) : Parser α α := do
  nested limit (limit - (← cursor).depth) Rule.precedence

/-- Reads an expression that the input ends with. -/
def complete (limit : Nat) : Parser α α := do
  let value ← expression limit
  expect .endOfInput .endOfInput
  return value

end Parser

/-- How a text is read: whether comments are passed over, and how many levels deep it may be. -/
structure Options where
  comments : Bool := true
  depthLimit : Nat := 32
  deriving DecidableEq, Inhabited

/-- The cursor at the first token of a text, unless there is none to be read. -/
def Cursor.ofText? (text : String) (options : Options) : Except ParseError Cursor :=
  match (Tape.ofText text options.comments).next with
  | (⟨start, .ok token⟩, tape) => .ok ⟨token, start, tape, 0⟩
  | (⟨_, .error error⟩, _) => .error error

end Formula
