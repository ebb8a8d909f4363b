/-
**What an expression is written as is read back.**

An expression is written like its canonical text, though with its texts between double quotes
(`Expression.written`). Every operator is then in parentheses with its operands, so an expression
whose names and operators are those of the language is an operand of the tightest layer, and two
levels of nesting are enough for each level of the tree.

* `Expression.Writable.derives`: what an expression is written as are the tokens of a derivation
  that stands for it.
* `Expression.ofText?_written`: so it is read as that expression, and expressions without texts are
  told apart by their canonical texts.
-/

import Formula.Proofs.Expressions
import Formula.Proofs.Grammar.Looser
import Formula.Proofs.Written.Leaves

namespace Formula

/-- The symbols of the operators of one kind. -/
def Kind.symbols (kind : Kind) : List String :=
  (Rule.precedence.filter fun rule => rule.kind = kind).flatMap fun rule =>
    rule.operators.map Operator.symbol

example : Kind.unary.symbols = ["not", "-", "+", "~"] := by decide

example : Kind.binary.symbols =
    ["or", "and", "==", "!=", "<", "<=", ">", ">=", "|", "&", "+", "-", "*", "/", "%"] := by decide

theorem Kind.mem_symbols {kind : Kind} {symbol : String} (inside : symbol ∈ kind.symbols) :
    ∃ (rule : Rule) (operator : Operator), rule.kind = kind ∧ operator ∈ rule.operators ∧
      operator.symbol = symbol := by
  obtain ⟨rule, of_kind, written⟩ := List.mem_flatMap.mp inside
  obtain ⟨operator, member, rfl⟩ := List.mem_map.mp written
  exact ⟨rule, operator, of_decide_eq_true (List.mem_filter.mp of_kind).2, member, rfl⟩

namespace Expression

/-! ### Written texts -/

mutual

/-- What an expression is written as: its canonical text, with texts between double quotes. -/
def written : Expression → String
  | literal value => value.written
  | reference target => target.name
  | call function arguments => callText function (writtenAll arguments)
  | unary operator operand => unaryText operator operand.written
  | binary operator left right => binaryText operator left.written right.written

/-- What expressions are written as. -/
def writtenAll : List Expression → List String
  | [] => []
  | first :: rest => first.written :: writtenAll rest

end

mutual

/-- How many levels of operands and arguments are below an expression. -/
def height : Expression → Nat
  | literal _ | reference _ => 0
  | call _ arguments => heightAll arguments
  | unary _ operand => operand.height + 1
  | binary _ left right => max left.height right.height + 1

/-- The levels that arguments add to a call: none if there are none. -/
def heightAll : List Expression → Nat
  | [] => 0
  | first :: rest => max (first.height + 1) (heightAll rest)

end

mutual

/-- Holds of expressions in which there is no text. -/
def textless : Expression → Bool
  | literal (.text _) => false
  | literal _ | reference _ => true
  | call _ arguments => textlessAll arguments
  | unary _ operand => operand.textless
  | binary _ left right => left.textless && right.textless

/-- Holds of expressions in none of which there is a text. -/
def textlessAll : List Expression → Bool
  | [] => true
  | first :: rest => first.textless && textlessAll rest

end

/-- Holds of the expressions that can be written: literals have no sign, references have names, and
operators are those of the language. -/
inductive Writable : Expression → Prop
  | literal {value : Literal} (unsigned : value.Unsigned) : Writable (.literal value)
  | reference {target : Reference} (named : target.Named) : Writable (.reference target)
  | call {function : Reference} {arguments : List Expression} (named : function.Named)
    (each : ∀ argument ∈ arguments, Writable argument) : Writable (.call function arguments)
  | unary {operator : String} {operand : Expression} (known : operator ∈ Kind.unary.symbols)
    (inside : Writable operand) : Writable (.unary operator operand)
  | binary {operator : String} {left right : Expression} (known : operator ∈ Kind.binary.symbols)
    (before : Writable left) (after : Writable right) : Writable (.binary operator left right)

mutual

/-- Without texts, an expression is written as its canonical text. -/
theorem written_of_textless : (expression : Expression) → expression.textless = true →
    expression.written = expression.display
  | literal (.integer _), _ | literal (.number _), _ | reference _, _ => rfl
  | call function arguments, without => by
    rw [written, display, writtenAll_of_textless arguments without]
  | unary operator operand, without => by
    rw [written, display, written_of_textless operand without]
  | binary operator left right, without => by
    obtain ⟨before, after⟩ := Bool.and_eq_true_iff.mp without
    rw [written, display, written_of_textless left before, written_of_textless right after]

theorem writtenAll_of_textless : (arguments : List Expression) → textlessAll arguments = true →
    writtenAll arguments = displayAll arguments
  | [], _ => rfl
  | first :: rest, without => by
    obtain ⟨here, more⟩ := Bool.and_eq_true_iff.mp without
    rw [writtenAll, displayAll, written_of_textless first here, writtenAll_of_textless rest more]

end

end Expression

namespace Expression

/-! ### Derivations -/

/-- Holds if what an expression is written as are the tokens of a derivation of it, with two levels
of nesting at most for each level of the tree. -/
def Derives (expression : Expression) : Prop :=
  ∃ derivation : Derivation (.layers []), derivation.tree = expression ∧
    derivation.level ≤ 2 * expression.height ∧ Writes expression.written.toList derivation.tokens

/-- A blank ends whatever is before it. -/
theorem clear_blank (text : List Char) : Clear (' ' :: text) :=
  .of_isBlank (by decide)

theorem unaryText_toList (operator operand : String) : (unaryText operator operand).toList =
    '(' :: (operator.toList ++ ' ' :: operand.toList ++ [')']) := by
  simp [unaryText, toString]

theorem binaryText_toList (operator left right : String) :
    (binaryText operator left right).toList =
      '(' :: (left.toList ++ ' ' :: (operator.toList ++ ' ' :: right.toList) ++ [')']) := by
  simp [binaryText, toString]

/-- An operator before an operand: two levels, for the parentheses and for the operand. -/
theorem derives_unary {operator : String} {operand : Expression}
    (known : operator ∈ Kind.unary.symbols) (derives : operand.Derives) :
    (unary operator operand).Derives := by
  obtain ⟨rule, which, isUnary, member, rfl⟩ := Kind.mem_symbols known
  obtain ⟨inner, inner_tree, inner_level, writes⟩ := derives
  obtain ⟨derivation, tokens, tree, level⟩ := inner.exists_operated isUnary member
  refine ⟨derivation, ?_, ?_, ?_⟩
  · rw [tree, inner_tree]
  · rw [level, height]
    omega
  · have symbol : (Token.operator which).SpelledBy which.symbol.toList := rfl
    rw [tokens, written, unaryText_toList]
    exact (Writes.cons_clear symbol (clear_blank _) writes.blank).parenthesised

/-- An operator between two operands: one level, for the parentheses. -/
theorem derives_binary {operator : String} {left right : Expression}
    (known : operator ∈ Kind.binary.symbols) (before : left.Derives) (after : right.Derives) :
    (binary operator left right).Derives := by
  obtain ⟨rule, which, isBinary, member, rfl⟩ := Kind.mem_symbols known
  obtain ⟨first, first_tree, first_level, first_writes⟩ := before
  obtain ⟨second, second_tree, second_level, second_writes⟩ := after
  obtain ⟨derivation, tokens, tree, level⟩ := first.exists_linked isBinary member second
  refine ⟨derivation, ?_, ?_, ?_⟩
  · rw [tree, first_tree, second_tree]
  · rw [level, height]
    omega
  · have symbol : (Token.operator which).SpelledBy which.symbol.toList := rfl
    have rest := (Writes.cons_clear symbol (clear_blank _) second_writes.blank).blank
    rw [tokens, written, binaryText_toList]
    exact (first_writes.append (clear_blank _) rest).parenthesised

/-! ### Calls -/

/-- Arguments end before more arguments, and before the parenthesis that closes them. -/
theorem clear_arguments (texts : List String) :
    Clear ((texts.flatMap fun next => ", ".toList ++ next.toList) ++ [')']) := by
  cases texts with
  | nil =>
    rintro next ⟨⟩
    decide
  | cons first rest =>
    rintro next ⟨⟩
    decide

/-- Arguments after the first, and the parenthesis that closes them. -/
theorem more_derives {arguments : List Expression}
    (each : ∀ argument ∈ arguments, argument.Derives) :
    ∃ derivation : Derivation .moreArguments, derivation.tree = arguments ∧
      derivation.level ≤ 2 * heightAll arguments ∧
        Writes (((writtenAll arguments).flatMap fun next => ", ".toList ++ next.toList) ++ [')'])
          (derivation.tokens ++ [.closeParen]) := by
  induction arguments with
  | nil => exact ⟨.lastArgument, rfl, Nat.zero_le _, .single rfl⟩
  | cons first rest step =>
    obtain ⟨more, more_tree, more_level, more_writes⟩ :=
      step fun argument inside => each argument (.tail _ inside)
    obtain ⟨value, value_tree, value_level, value_writes⟩ := each first List.mem_cons_self
    obtain ⟨derivation, tokens, tree, level⟩ := value.exists_argument more
    refine ⟨derivation, ?_, ?_, ?_⟩
    · rw [tree, value_tree, more_tree]
    · rw [level, heightAll]
      omega
    · have comma : Token.comma.SpelledBy [','] := rfl
      have after := value_writes.append (clear_arguments (writtenAll rest)) more_writes
      have whole := Writes.cons comma (fun _ _ => trivial) after.blank
      rw [tokens, writtenAll, List.flatMap_cons, List.append_assoc, List.append_assoc,
        List.cons_append, List.append_assoc]
      exact whole

/-- All arguments, and the parenthesis that closes them. -/
theorem arguments_derive {arguments : List Expression}
    (each : ∀ argument ∈ arguments, argument.Derives) :
    ∃ derivation : Derivation .arguments, derivation.tree = arguments ∧
      derivation.level ≤ 2 * heightAll arguments ∧
        Writes ((", ".intercalate (writtenAll arguments)).toList ++ [')']) derivation.tokens := by
  cases arguments with
  | nil => exact ⟨.noArguments, rfl, Nat.zero_le _, .single rfl⟩
  | cons first rest =>
    obtain ⟨more, more_tree, more_level, more_writes⟩ :=
      more_derives fun argument inside => each argument (.tail _ inside)
    obtain ⟨value, value_tree, value_level, value_writes⟩ := each first List.mem_cons_self
    obtain ⟨derivation, tokens, tree, level⟩ := value.exists_someArguments more
    refine ⟨derivation, ?_, ?_, ?_⟩
    · rw [tree, value_tree, more_tree]
    · rw [level, heightAll]
      omega
    · rw [tokens, writtenAll, intercalate_toList, List.append_assoc]
      exact value_writes.append (clear_arguments (writtenAll rest)) more_writes

theorem callText_toList (function : Reference) (arguments : List String) :
    (callText function arguments).toList =
      function.name.toList ++ '(' :: ((", ".intercalate arguments).toList ++ [')']) := by
  simp [callText]

/-- A call: each argument is one level deeper. -/
theorem derives_call {function : Reference} {arguments : List Expression}
    (named : function.Named) (each : ∀ argument ∈ arguments, argument.Derives) :
    (call function arguments).Derives := by
  obtain ⟨inside, rfl, level, writes⟩ := arguments_derive each
  have clear : Clear ('(' :: ((", ".intercalate (writtenAll inside.tree)).toList ++ [')'])) := by
    rintro next ⟨⟩
    decide
  have opened : Token.openParen.SpelledBy ['('] := rfl
  have called := Writes.cons opened (fun _ _ => trivial) writes
  obtain ⟨first, names, same, name_writes⟩ := Reference.name_writes clear called named
  refine ⟨.reference first names (.called inside), ?_, level, ?_⟩
  · rw [same]
    rfl
  · rw [written, callText_toList]
    exact name_writes

theorem derives_reference {target : Reference} (named : target.Named) :
    (reference target).Derives := by
  obtain ⟨first, names, same, name_writes⟩ :=
    Reference.name_writes Clear.nothing Writes.nothing named
  rw [List.append_nil] at name_writes
  refine ⟨.reference first names .uncalled, ?_, Nat.zero_le _, name_writes⟩
  rw [same]
  rfl

/-! ### Reading back -/

/-- What an expression is written as are the tokens of a derivation of it. -/
theorem Writable.derives {expression : Expression} (writable : expression.Writable) :
    expression.Derives := by
  induction writable with
  | literal unsigned =>
    obtain ⟨derivation, tree, level, writes⟩ := Literal.written_derives unsigned
    exact ⟨derivation, tree, Nat.le_of_eq level, writes⟩
  | reference named => exact derives_reference named
  | call named _ each => exact derives_call named each
  | unary known _ inside => exact derives_unary known inside
  | binary known _ _ before after => exact derives_binary known before after

theorem Writable.reads {expression : Expression} (writable : expression.Writable)
    {options : Options} (levels : 1 + 2 * expression.height ≤ options.depthLimit) :
    ofText? expression.written options = .ok expression := by
  obtain ⟨inside, tree, level, writes⟩ := writable.derives
  obtain ⟨derivation, same_tokens, same_tree, same_level⟩ :=
    inside.exists_alone Rule.precedence
  have spells := writes.spells options.comments
  rw [← same_tokens] at spells
  have nesting : derivation.nesting ≤ options.depthLimit := by
    rw [Derivation.nesting, same_level]
    omega
  rw [ofText?_of_derivation spells nesting, same_tree, tree]

/-- **What an expression is written as is read back as that expression**, with comments or without
and with two levels of nesting for each level of the tree. Without texts in it, it is written as its
canonical text, which no other such expression has. -/
theorem ofText?_written (expression : Expression) (writable : expression.Writable) :
    (∀ options : Options, 1 + 2 * expression.height ≤ options.depthLimit →
      ofText? expression.written options = .ok expression) ∧
    (expression.textless = true → expression.written = expression.display ∧
      ∀ other : Expression, other.Writable → other.textless = true →
        other.display = expression.display → other = expression) := by
  refine ⟨fun options levels => writable.reads levels, fun without => ?_⟩
  refine ⟨written_of_textless expression without, fun other other_writable other_without same => ?_⟩
  rw [← written_of_textless expression without, ← written_of_textless other other_without] at same
  let options : Options :=
    { depthLimit := max (1 + 2 * expression.height) (1 + 2 * other.height) }
  have first : ofText? expression.written options = .ok expression :=
    writable.reads (Nat.le_max_left _ _)
  have second : ofText? other.written options = .ok other :=
    other_writable.reads (Nat.le_max_right _ _)
  rw [same, first] at second
  exact (Except.ok.inj second).symm

/-- A backslash and a number with a fraction are read back from the arguments of a call, and a sum
is told apart from a difference. -/
theorem ofText?_written_call :
    ofText? "(- f(\"\\\\\", 1.5))" { depthLimit := 5 } =
      .ok (.unary "-" (.call ⟨["f"]⟩ [.literal (.text "\\"),
        .literal (.number (.finite false ⟨4609434218613702656, by decide +kernel⟩))])) ∧
    (binary "+" (.reference ⟨["f"]⟩) (.literal (.integer 1))).display ≠
      (binary "-" (.reference ⟨["f"]⟩) (.literal (.integer 1))).display := by
  have isName : IsName "f" := by decide
  have named : Reference.Named ⟨["f"]⟩ := ⟨List.cons_ne_nil _ _, by simp [isName]⟩
  refine ⟨?_, fun same => ?_⟩
  · let rank : Fin infinityRank := ⟨4609434218613702656, by decide +kernel⟩
    let root : Expression :=
      .unary "-" (.call ⟨["f"]⟩ [.literal (.text "\\"), .literal (.number (.finite false rank))])
    have writable : root.Writable := by
      refine .unary (by decide) (.call named ?_)
      simp only [List.forall_mem_cons]
      exact ⟨.literal trivial, .literal ⟨_, rfl⟩, List.forall_mem_nil _⟩
    have text : root.written = "(- f(\"\\\\\", 1.5))" := by decide +kernel
    rw [← text]
    exact (ofText?_written root writable).1 { depthLimit := 5 } (by decide +kernel)
  · have writable {operator : String} (known : operator ∈ Kind.binary.symbols) :
        (binary operator (.reference ⟨["f"]⟩) (.literal (.integer 1))).Writable :=
      .binary known (.reference named) (.literal (show (0 : Int) ≤ Int64.toInt 1 by decide))
    have plus : "+" ∈ Kind.binary.symbols := by decide
    have minus : "-" ∈ Kind.binary.symbols := by decide
    have equal := ((ofText?_written _ (writable minus)).2 rfl).2 _ (writable plus) rfl same
    exact absurd (Expression.binary.inj equal).1 (by decide)

end Expression

end Formula
