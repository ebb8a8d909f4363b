/-
**The arguments of the program.**

The first argument names a command; what follows are options and expressions. An argument that
begins with a hyphen and goes on is an option, up to an argument of two hyphens, after which all are
expressions. A value of an option is attached, or it is the next argument, which must not look like
an option itself. No option may be given twice. Arguments that do not fit are refused as a whole.
-/

import Formula.Command.Compile

namespace Formula.Command

/-- What the program is asked to do. An expression that is not given is read from the input. -/
inductive Invocation
  | version
  | compile (expression : Option String) (format : Format) (options : Options)
  | refs (expressions : List String)
  | overview
  deriving DecidableEq

/-! ### The form of an argument -/

/-- What an argument looks like. -/
inductive Argument
  | value (text : String)
  | escape
  | long (name : String) (attached : Option String)
  | short (letter : Char) (attached : Option String)
  deriving DecidableEq

namespace Argument

/-- The name of a long option, and the value after the first equals sign. -/
def ofLong (text : List Char) : Argument :=
  let name := text.takeWhile (· != '=')
  match text.dropWhile (· != '=') with
  | [] => long (String.ofList name) none
  | _ :: attached => long (String.ofList name) (some (String.ofList attached))

/-- The letter of a short option, and what is attached to it, an equals sign apart. -/
def ofShort (letter : Char) : List Char → Argument
  | [] => short letter none
  | '=' :: attached => short letter (some (String.ofList attached))
  | attached => short letter (some (String.ofList attached))

/-- What a text looks like as an argument. A single hyphen is a value. -/
def ofText (text : String) : Argument :=
  match text.toList with
  | ['-', '-'] => escape
  | '-' :: '-' :: rest => ofLong rest
  | '-' :: letter :: rest => ofShort letter rest
  | _ => value text

/-- Holds of a text that can be the value of the option before it. -/
def isValue (text : String) : Bool :=
  match ofText text with
  | value _ => true
  | _ => false

end Argument

/-! ### The options of `compile` -/

/-- The options of `compile` that have been given. -/
structure Given where
  expression : Option String := none
  format : Option Format := none
  noComments : Bool := false
  depthLimit : Option Nat := none

namespace Given

/-- Reads a number of sixty-four bits without a sign, though a plus is allowed. -/
def depth? (text : String) : Option Nat :=
  let digits :=
    match text.toList with
    | '+' :: rest => rest
    | digits => digits
  if !digits.isEmpty && digits.all Char.isDigit && digitsValue digits < UInt64.size then
    some (digitsValue digits)
  else none

/-- Gives the expression, which must not have been given. -/
def setExpression (given : Given) (text : String) : Option Given :=
  if given.expression.isSome then none else some { given with expression := some text }

/-- Gives the format by its name. -/
def setFormat (given : Given) (name : String) : Option Given :=
  if given.format.isSome then none
  else (Format.ofName? name).map fun format => { given with format := some format }

/-- Gives the limit on the depth. -/
def setDepthLimit (given : Given) (text : String) : Option Given :=
  if given.depthLimit.isSome then none
  else (depth? text).map fun limit => { given with depthLimit := some limit }

/-- Turns comments off. -/
def setNoComments (given : Given) : Option Given :=
  if given.noComments then none else some { given with noComments := true }

/-- How an option that takes a value takes it. -/
def setter? : Argument → Option ((Given → String → Option Given) × Option String)
  | .long "format" attached => some (setFormat, attached)
  | .short 'f' attached => some (setFormat, attached)
  | .long "max-depth" attached => some (setDepthLimit, attached)
  | _ => none

/-- Takes the arguments one after another. -/
def take (given : Given) : List String → Option Given
  | [] => some given
  | text :: rest =>
    match Argument.ofText text with
    | .value text => (given.setExpression text).bind fun given => given.take rest
    | .escape => rest.foldlM setExpression given
    | .long "no-comments" none => given.setNoComments.bind fun given => given.take rest
    | argument =>
      match setter? argument with
      | some (set, some attached) => (set given attached).bind fun given => given.take rest
      | some (set, none) =>
        match rest with
        | value :: rest =>
          if Argument.isValue value then (set given value).bind fun given => given.take rest
          else none
        | [] => none
      | none => none

/-- The invocation that the given options amount to. -/
def invocation (given : Given) : Invocation :=
  let standard : Options := {}
  .compile given.expression (given.format.getD .text)
    ⟨!given.noComments, given.depthLimit.getD standard.depthLimit⟩

end Given

/-! ### Commands -/

/-- The expressions among arguments that allow no options. -/
def values? : List String → Option (List String)
  | [] => some []
  | text :: rest =>
    match Argument.ofText text with
    | .value text => (values? rest).map (text :: ·)
    | .escape => some rest
    | _ => none

/-- What the arguments ask for, if they fit. -/
def Invocation.ofArguments? : List String → Option Invocation
  | "compile" :: rest => (Given.take {} rest).map Given.invocation
  | "refs" :: rest => (values? rest).map .refs
  | "grammar" :: rest => (values? rest).bind fun values =>
    if values.isEmpty then some .overview else none
  | text :: _ =>
    match Argument.ofText text with
    | .long "version" none => some .version
    | .short 'V' _ => some .version
    | _ => none
  | [] => none

end Formula.Command
