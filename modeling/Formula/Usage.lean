/-
**Which variables and functions an expression uses.**

A usage holds the dotted names of the variables and of the functions that were met. Collecting is a
builder: it builds the tree and puts every reference into the usage that is its context, so one
usage can gather the references of many expressions.

* `Usage.mem_addAll`, `Usage.mem_union`: what the operations do to the mentions.
* `Usage.ext`: a usage is determined by its mentions.
-/

import Formula.Compile

namespace Formula

/-- The order of strings, byte by byte, is transitive. -/
instance transStringLt : Trans (α := String) (· < ·) (· < ·) (· < ·) :=
  ⟨String.lt_trans⟩

/-- The names of variables and of functions. -/
structure Usage where
  «variables» : SortedSet String := .empty
  functions : SortedSet String := .empty

namespace Usage

instance : Inhabited Usage :=
  ⟨{}⟩

/-- Holds of the usage without names. -/
def isEmpty (usage : Usage) : Bool :=
  usage.variables.isEmpty && usage.functions.isEmpty

/-- Adds the name of a variable. -/
def addVariable (usage : Usage) (name : String) : Usage :=
  { usage with «variables» := usage.variables.insert name }

/-- Adds the name of a function. -/
def addFunction (usage : Usage) (name : String) : Usage :=
  { usage with functions := usage.functions.insert name }

/-- The names of two usages. -/
def union (first second : Usage) : Usage :=
  ⟨first.variables.union second.variables, first.functions.union second.functions⟩

/-- One line for each name, variables before functions. -/
def report (usage : Usage) : String :=
  String.join (usage.variables.toList.map fun name => s!"variable {name}\n") ++
    String.join (usage.functions.toList.map fun name => s!"function {name}\n")

/-! ### Mentions -/

/-- The name of a variable or of a function. -/
inductive Mention
  | «variable» (name : String)
  | function (name : String)
  deriving DecidableEq

/-- Adds a mention. -/
def add (usage : Usage) : Mention → Usage
  | .variable name => usage.addVariable name
  | .function name => usage.addFunction name

/-- Adds every mention of a list. -/
def addAll (usage : Usage) (mentions : List Mention) : Usage :=
  mentions.foldl add usage

instance : Membership Mention Usage where
  mem usage
    | .variable name => name ∈ usage.variables
    | .function name => name ∈ usage.functions

/-- A usage is determined by its mentions. -/
theorem ext {first second : Usage}
    (same : ∀ mention : Mention, mention ∈ first ↔ mention ∈ second) : first = second := by
  have same_variables : first.variables = second.variables :=
    SortedSet.ext fun name => same (.variable name)
  have same_functions : first.functions = second.functions :=
    SortedSet.ext fun name => same (.function name)
  obtain ⟨«variables», functions⟩ := first
  cases same_variables
  cases same_functions
  rfl

@[simp] theorem not_mem_empty (mention : Mention) : ¬ mention ∈ ({} : Usage) := by
  cases mention <;> exact SortedSet.not_mem_empty _

@[simp] theorem mem_add {mention other : Mention} {usage : Usage} :
    other ∈ usage.add mention ↔ other = mention ∨ other ∈ usage := by
  cases mention <;> cases other
  case «variable».«variable» name other =>
    exact SortedSet.mem_insert.trans (by rw [Mention.variable.injEq]; rfl)
  case function.function name other =>
    exact SortedSet.mem_insert.trans (by rw [Mention.function.injEq]; rfl)
  all_goals exact (or_iff_right Mention.noConfusion).symm

@[simp] theorem mem_addAll {other : Mention} {usage : Usage} {mentions : List Mention} :
    other ∈ usage.addAll mentions ↔ other ∈ mentions ∨ other ∈ usage := by
  induction mentions generalizing usage with
  | nil => simp [addAll]
  | cons mention mentions step =>
    rw [addAll, List.foldl_cons, ← addAll, step, mem_add, List.mem_cons, or_assoc, or_left_comm]

@[simp] theorem mem_union {mention : Mention} {first second : Usage} :
    mention ∈ first.union second ↔ mention ∈ second ∨ mention ∈ first := by
  cases mention <;> exact SortedSet.mem_union

end Usage

/-- Builds the tree of an expression and collects the references in it. -/
def Builder.collecting {ε : Type} (ofError : Error → ε) : Builder Usage ε Expression :=
  { Builder.tree ofError with
    reference := fun target => do
      modify fun usage => usage.addVariable target.name
      return .reference target
    call := fun function arguments => do
      modify fun usage => usage.addFunction function.name
      return .call function arguments }

end Formula
