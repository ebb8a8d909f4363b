/-
**What can go wrong, as causes.**

A text is refused at a position, counted in UTF-8 bytes, for one of seven causes; a compilation
fails because its text is refused, because a number cannot be read, or because a builder was handed
something the grammar never produces. The wording is in `ParseError.message` and `Error.message`.
-/

import Formula.Rule
import Formula.Token

namespace Formula

/-! ### Refused texts -/

/-- What the grammar would have taken in place of an unexpected token. -/
inductive Expected
  | expression
  | closing
  | separatorOrClosing
  | segment
  | endOfInput
  deriving DecidableEq

/-- The words for what was expected. -/
def Expected.describe : Expected → String
  | expression => "an expression"
  | closing => "')'"
  | separatorOrClosing => "',' or ')'"
  | segment => "identifier after '.'"
  | endOfInput => "end of input"

/-- Why a text is refused. -/
inductive Cause
  | unexpectedCharacter (found : Char)
  | unterminatedText
  | invalidEscape (escape : Char)
  | malformedNumber (lexeme : String)
  | unexpectedToken (found : Token) (expected : Expected)
  | unexpectedEnd (expected : Expected)
  | nestingTooDeep (limit : Nat)
  deriving DecidableEq

/-- A refused text: the cause, and the byte offset at which it was met. -/
structure ParseError where
  cause : Cause
  position : Nat
  deriving DecidableEq

/-- The message for a refused text. -/
def ParseError.message (error : ParseError) : String :=
  match error with
  | ⟨.unexpectedCharacter found, position⟩ =>
    s!"Unexpected character '{found}' at position {position}"
  | ⟨.unterminatedText, position⟩ =>
    s!"Unterminated string starting at position {position}"
  | ⟨.invalidEscape escape, position⟩ =>
    s!"Invalid escape sequence '\\{escape}' at position {position}"
  | ⟨.malformedNumber lexeme, position⟩ =>
    s!"Malformed number '{lexeme}' at position {position}"
  | ⟨.unexpectedToken found expected, position⟩ =>
    s!"Expected {expected.describe}, got {found.describe} at position {position}"
  | ⟨.unexpectedEnd expected, position⟩ =>
    s!"Unexpected end of input at position {position}, expected {expected.describe}"
  | ⟨.nestingTooDeep limit, position⟩ =>
    s!"Expression nesting depth exceeds maximum of {limit} levels at position {position}"

/-! ### Failed compilations -/

/-- The shapes in which a layer can report what it matched. -/
inductive Shape
  | passthrough
  | binary
  | unary
  deriving DecidableEq

/-- The word for a shape. -/
def Shape.word : Shape → String
  | passthrough => "passthrough"
  | binary => "binary"
  | unary => "unary"

/-- The parts of an expression that a builder gives a meaning to. -/
inductive Hook
  | literal
  | reference
  | operator
  | unary
  | call
  deriving DecidableEq

/-- The name a hook is reported under. -/
def Hook.name : Hook → String
  | literal => "compile_literal"
  | reference => "compile_variable"
  | operator => "compile_operator"
  | unary => "compile_unary"
  | call => "compile_function"

/-- What a builder can be handed, or lack, against its contract. -/
inductive Defect
  | emptyReference
  | mismatch (rule : Rule) (shape : Shape)
  | missing (hook : Hook)
  deriving DecidableEq

/-- The message for a broken contract. -/
def Defect.message : Defect → String
  | emptyReference => "reference without segments"
  | mismatch rule shape =>
    s!"rule {rule.name} is {rule.kind.word} but was reduced with a {shape.word} payload"
  | missing hook => s!"{hook.name} has no default for this strategy"

/-- Why a compilation fails. -/
inductive Error
  | refused (error : ParseError)
  | unreadableNumber (lexeme : String)
  | internal (defect : Defect)
  deriving DecidableEq

/-- The message for a failed compilation. -/
def Error.message : Error → String
  | refused error => error.message
  | unreadableNumber lexeme => s!"Invalid numeric literal '{lexeme}'"
  | internal defect => s!"Internal error: {defect.message}"

end Formula
