/-
**The tokens of the language.**

A token carries what its spelling says: a number its digits as written (an exponent always as `e`),
a text its content, a name its letters, an operator which one it is. `describe` is how a token is
called in a message.
-/

import Formula.Operator
import Formula.Text.Quoted

namespace Formula

/-- A lexical unit of an expression. -/
inductive Token
  | number (lexeme : String)
  | text (content : String)
  | name (letters : String)
  | operator (which : Operator)
  | openParen
  | closeParen
  | comma
  | dot
  | endOfInput
  deriving DecidableEq, Inhabited

namespace Token

/-- The token a word stands for: three words are operators, all others are names. -/
def ofWord (word : String) : Token :=
  match word with
  | "and" => .operator .and
  | "or" => .operator .or
  | "not" => .operator .not
  | _ => .name word

/-- What a token is called in a message. -/
def describe : Token → String
  | number lexeme => s!"number {lexeme}"
  | text content => s!"string {Text.quoted content}"
  | name letters => s!"identifier '{letters}'"
  | operator which => s!"'{which.symbol}'"
  | openParen => "'('"
  | closeParen => "')'"
  | comma => "','"
  | dot => "'.'"
  | endOfInput => "end of input"

end Token

end Formula
