/-
**Sessions with a compiler that collects references.**

A compiler keeps its usage and its options from one compilation to the next. Its callers may bring
usages of their own to compile in, change its options, and add mentions to its usage or empty it;
and they may take the usage out and make a new compiler around it. A session is the compiler with
the usages of its callers, and goes on step by step.
-/

import Formula.Usage

namespace Formula

/-- A compiler that collects references, and the usages of its callers. -/
@[ext]
structure Session (ι : Type) where
  usage : Usage := {}
  options : Options := {}
  callers : ι → Usage := fun _ => {}

namespace Session

variable {ι : Type}

/-- What is done in a session. -/
inductive Step (ι : Type)
  | compile (text : String)
  | compileIn (text : String) (caller : ι)
  | setOptions (options : Options)
  | insert (mentions : List Usage.Mention)
  | clear
  | rebuild

/-- The compiler of a session. -/
def compiler (session : Session ι) : Compiler Usage Error Expression where
  builder := .collecting id
  context := session.usage
  options := session.options

/-- Puts a compiler into its place. -/
def withCompiler (session : Session ι) (compiler : Compiler Usage Error Expression) : Session ι :=
  { session with usage := compiler.context, options := compiler.options }

/-- Puts a usage of a caller into its place. -/
def withCaller [DecidableEq ι] (session : Session ι) (caller : ι) (usage : Usage) : Session ι :=
  { session with
    callers := fun other => if other = caller then usage else session.callers other }

/-- Makes a step. The two that compile have a result. -/
def step [DecidableEq ι] (session : Session ι) :
    Step ι → Option (Except Error Expression) × Session ι
  | .compile text =>
    let (result, compiler) := session.compiler.compile text
    (some result, session.withCompiler compiler)
  | .compileIn text caller =>
    let (result, usage) := session.compiler.compileIn text (session.callers caller)
    (some result, session.withCaller caller usage)
  | .setOptions options => (none, session.withCompiler { session.compiler with options })
  | .insert mentions =>
    (none, session.withCompiler
      { session.compiler with context := session.compiler.context.addAll mentions })
  | .clear => (none, session.withCompiler { session.compiler with context := {} })
  | .rebuild =>
    (none, session.withCompiler
      { builder := .collecting id, context := session.compiler.context })

/-- Makes steps one after another. -/
def run [DecidableEq ι] (session : Session ι) (steps : List (Step ι)) : Session ι :=
  steps.foldl (fun session step => (session.step step).2) session

end Session

end Formula
