/-
**What the command that lists references gathers.**

The expressions are compiled one after another into one usage. The first that has no tree ends the
command, with its index, counted from one, and with its own error. If all have trees, the usage is
the union of what the trees mention, whatever their order, number and grouping. It is reported name
by name, in the order of the bytes.

* `Command.compileAll_cons`, `Command.compileAll_gathered`, `Command.compileAll_refused`: what one
  expression does, and what all of them do.
* `Command.refs_gathers`: the results of the command, and their report.
-/

import Formula.Command.Refs
import Formula.Proofs.Bytes
import Formula.Proofs.EarliestError
import Formula.Proofs.Mentions

namespace Formula

open Expression (ofText?)

/-! ### Reports -/

/-- The lines of a report, variables first. -/
theorem Usage.report_lines (usage : Usage) :
    usage.report = String.join ((usage.variables.toList.map ("variable " ++ · ++ "\n")) ++
      usage.functions.toList.map ("function " ++ · ++ "\n")) := by
  rw [String.join_append]
  rfl

/-- The members of a sorted set of names stand in the order of their bytes. -/
theorem SortedSet.increasing_bytes (set : SortedSet String) :
    set.toList.Pairwise fun first second => Text.bytes first < Text.bytes second :=
  set.increasing.imp Text.lt_iff_bytes.mp

namespace Command

variable {options : Options}

/-- Holds of expressions that all have a tree. -/
def AllCompile (expressions : List String) (options : Options) : Prop :=
  ∀ expression ∈ expressions, ∃ tree, ofText? expression options = .ok tree

/-- Holds of a mention in the tree of one of the expressions. -/
def Mentioned (expressions : List String) (options : Options) (mention : Usage.Mention) : Prop :=
  ∃ expression ∈ expressions, ∃ tree, ofText? expression options = .ok tree ∧
    mention ∈ tree.mentions

/-- Holds of the index, counted from one, and the error of the first expression without a tree. -/
def FirstRejected (expressions : List String) (options : Options) (index : Nat) (error : Error) :
    Prop :=
  ∃ before expression after, expressions = before ++ expression :: after ∧
    index = before.length + 1 ∧ AllCompile before options ∧
    ofText? expression options = .error error

theorem mentioned_append {expressions others : List String} {mention : Usage.Mention} :
    Mentioned (expressions ++ others) options mention ↔
      Mentioned expressions options mention ∨ Mentioned others options mention := by
  simp only [Mentioned, List.mem_append, or_and_right, exists_or]

/-- Either all expressions have a tree, or there is a first one that has none. -/
theorem allCompile_or_rejected (expressions : List String) (options : Options) :
    AllCompile expressions options ∨
      ∃ index error, FirstRejected expressions options index error := by
  induction expressions with
  | nil => exact .inl (List.forall_mem_nil _)
  | cons expression rest step =>
    cases compiled : ofText? expression options with
    | error error =>
      exact .inr ⟨1, error, [], expression, rest, rfl, rfl, List.forall_mem_nil _, compiled⟩
    | ok tree =>
      rcases step with all | ⟨_, error, before, rejected, after, rfl, rfl, earlier, failed⟩
      · exact .inl (List.forall_mem_cons.mpr ⟨⟨tree, compiled⟩, all⟩)
      · exact .inr ⟨_, error, expression :: before, rejected, after, rfl, rfl,
          List.forall_mem_cons.mpr ⟨⟨tree, compiled⟩, earlier⟩, failed⟩

/-! ### One expression after another -/

/-- A compiler that gathers into a usage. -/
def gathering (usage : Usage) (options : Options) : Compiler Usage Error Expression :=
  { builder := .collecting id, context := usage, options }

/-- What one expression does: it adds what it mentions, or it ends the command. -/
theorem compileAll_cons (usage : Usage) (options : Options) (index : Nat) (expression : String)
    (rest : List String) :
    compileAll (gathering usage options) index (expression :: rest) =
      match ofText? expression options with
      | .ok tree => compileAll (gathering (usage.addAll tree.mentions) options) (index + 1) rest
      | .error error => .error (.refusedAt index error) := by
  obtain ⟨outcome, context⟩ := compile_collecting expression options usage
  have compiled : (gathering usage options).compile expression =
      (ofText? expression options,
        gathering (usage.union (Usage.ofText expression options)) options) := by
    rw [← outcome, ← context]
    rfl
  rw [compileAll, compiled]
  cases found : ofText? expression options with
  | error error => rfl
  | ok tree =>
    have union : usage.union (Usage.ofText expression options) = usage.addAll tree.mentions :=
      Usage.ext fun mention => by
        rw [Usage.mem_union, Usage.ofText_tree found, Usage.mem_addAll, Usage.mem_addAll,
          or_iff_left (Usage.not_mem_empty mention)]
    rw [union]

theorem compileAll_gathered {expressions : List String} (all : AllCompile expressions options)
    (usage : Usage) (index : Nat) :
    ∃ gathered, compileAll (gathering usage options) index expressions = .ok gathered ∧
      ∀ mention, mention ∈ gathered ↔ mention ∈ usage ∨ Mentioned expressions options mention := by
  induction expressions generalizing usage index with
  | nil => exact ⟨usage, rfl, fun mention => by simp [Mentioned]⟩
  | cons expression rest step =>
    obtain ⟨⟨tree, compiled⟩, later⟩ := List.forall_mem_cons.mp all
    obtain ⟨gathered, same, members⟩ := step later (usage.addAll tree.mentions) (index + 1)
    refine ⟨gathered, by rw [compileAll_cons, compiled]; exact same, fun mention => ?_⟩
    have here : Mentioned [expression] options mention ↔ mention ∈ tree.mentions := by
      simp [Mentioned, compiled]
    rw [members, Usage.mem_addAll, ← List.singleton_append, mentioned_append, here, or_assoc,
      or_left_comm]

theorem compileAll_refused {before after : List String} {expression : String} {error : Error}
    (earlier : AllCompile before options) (failed : ofText? expression options = .error error)
    (usage : Usage) (index : Nat) :
    compileAll (gathering usage options) index (before ++ expression :: after) =
      .error (.refusedAt (before.length + index) error) := by
  induction before generalizing usage index with
  | nil => rw [List.nil_append, compileAll_cons, failed, List.length_nil, Nat.zero_add]
  | cons first before step =>
    obtain ⟨⟨tree, compiled⟩, later⟩ := List.forall_mem_cons.mp earlier
    rw [List.cons_append, compileAll_cons, compiled]
    dsimp only
    rw [step later, List.length_cons, Nat.add_assoc, Nat.add_comm 1]

/-! ### The command -/

theorem refs_eq {expressions : List String} (some_expression : expressions ≠ [])
    (options : Options) :
    refs expressions options = compileAll (gathering {} options) 1 expressions := by
  rw [refs, if_neg (by simpa using some_expression)]
  rfl

theorem refs_of_compile {expressions : List String} (some_expression : expressions ≠ [])
    (all : AllCompile expressions options) :
    ∃ gathered, refs expressions options = .ok gathered ∧
      ∀ mention, mention ∈ gathered ↔ Mentioned expressions options mention := by
  obtain ⟨gathered, same, members⟩ := compileAll_gathered all {} 1
  refine ⟨gathered, (refs_eq some_expression options).trans same, fun mention => ?_⟩
  rw [members, or_iff_right (Usage.not_mem_empty mention)]

theorem refs_of_rejected {expressions : List String} {index : Nat} {error : Error}
    (rejected : FirstRejected expressions options index error) :
    refs expressions options = .error (.refusedAt index error) := by
  obtain ⟨before, expression, after, rfl, rfl, earlier, failed⟩ := rejected
  rw [refs_eq (by simp), compileAll_refused earlier failed]

theorem refs_eq_error_iff {expressions : List String} (some_expression : expressions ≠ [])
    {failure : Failure} :
    refs expressions options = .error failure ↔
      ∃ index error, FirstRejected expressions options index error ∧
        failure = .refusedAt index error := by
  constructor
  · intro failed
    rcases allCompile_or_rejected expressions options with all | ⟨index, error, rejected⟩
    · obtain ⟨gathered, same, -⟩ := refs_of_compile some_expression all
      cases same.symm.trans failed
    · cases (refs_of_rejected rejected).symm.trans failed
      exact ⟨index, error, rejected, rfl⟩
  · rintro ⟨index, error, rejected, rfl⟩
    exact refs_of_rejected rejected

theorem refs_eq_ok_iff {expressions : List String} (some_expression : expressions ≠ [])
    {usage : Usage} :
    refs expressions options = .ok usage ↔ AllCompile expressions options ∧
      ∀ mention, mention ∈ usage ↔ Mentioned expressions options mention := by
  constructor
  · intro gathers
    rcases allCompile_or_rejected expressions options with all | ⟨index, error, rejected⟩
    · obtain ⟨gathered, same, members⟩ := refs_of_compile some_expression all
      cases same.symm.trans gathers
      exact ⟨all, members⟩
    · cases (refs_of_rejected rejected).symm.trans gathers
  · rintro ⟨all, members⟩
    obtain ⟨gathered, same, gathered_members⟩ := refs_of_compile some_expression all
    have equal : gathered = usage :=
      Usage.ext fun mention => (gathered_members mention).trans (members mention).symm
    rw [same, equal]

/-- The command has nothing to say where there is no expression. -/
theorem ne_nil_of_refs {expressions : List String} {usage : Usage}
    (gathers : refs expressions options = .ok usage) : expressions ≠ [] := by
  rintro rfl
  cases gathers

/-- **The references of expressions.** The first expression without a tree ends the command, with
its index and the error that it has alone. If all have trees, the command gives the union of what
the trees mention. So it gives the same for the same expressions in any order, each any number of
times, and for two lists one after the other the union of what it gives for each. A report has one
line for each name, variables before functions, each of the two in the order of the bytes. -/
theorem refs_gathers (expressions : List String) (some_expression : expressions ≠ [])
    (options : Options) :
    (∀ failure, refs expressions options = .error failure ↔
      ∃ index error, FirstRejected expressions options index error ∧
        failure = .refusedAt index error) ∧
    (∀ usage, refs expressions options = .ok usage ↔ AllCompile expressions options ∧
      ∀ mention, mention ∈ usage ↔ Mentioned expressions options mention) ∧
    (∀ usage others, refs expressions options = .ok usage →
      (∀ expression, expression ∈ others ↔ expression ∈ expressions) →
        refs others options = .ok usage) ∧
    (∀ usage others other, refs expressions options = .ok usage →
      refs others options = .ok other →
        refs (expressions ++ others) options = .ok (usage.union other)) ∧
    ∀ usage : Usage, ∃ «variables» functions : List String,
      usage.report = String.join («variables».map ("variable " ++ · ++ "\n") ++
          functions.map ("function " ++ · ++ "\n")) ∧
        (∀ name, name ∈ «variables» ↔ Usage.Mention.variable name ∈ usage) ∧
        (∀ name, name ∈ functions ↔ Usage.Mention.function name ∈ usage) ∧
        («variables».Pairwise fun first second => Text.bytes first < Text.bytes second) ∧
        functions.Pairwise fun first second => Text.bytes first < Text.bytes second := by
  refine ⟨fun failure => refs_eq_error_iff some_expression,
    fun usage => refs_eq_ok_iff some_expression, fun usage others gathers same => ?_,
    fun usage others other gathers others_gather => ?_, fun usage => ?_⟩
  · obtain ⟨all, members⟩ := (refs_eq_ok_iff some_expression).mp gathers
    have some_other : others ≠ [] := by
      obtain ⟨first, rest, rfl⟩ := List.exists_cons_of_ne_nil some_expression
      exact List.ne_nil_of_mem ((same first).mpr List.mem_cons_self)
    refine (refs_eq_ok_iff some_other).mpr ⟨fun expression inside => ?_, fun mention => ?_⟩
    · exact all expression ((same expression).mp inside)
    · rw [members]
      simp only [Mentioned, same]
  · obtain ⟨all, members⟩ := (refs_eq_ok_iff some_expression).mp gathers
    obtain ⟨others_all, others_members⟩ :=
      (refs_eq_ok_iff (ne_nil_of_refs others_gather)).mp others_gather
    refine (refs_eq_ok_iff (by simp [some_expression])).mpr
      ⟨List.forall_mem_append.mpr ⟨all, others_all⟩, fun mention => ?_⟩
    rw [Usage.mem_union, members, others_members, mentioned_append, or_comm]
  · exact ⟨usage.variables.toList, usage.functions.toList, usage.report_lines,
      fun name => Iff.rfl, fun name => Iff.rfl, usage.variables.increasing_bytes,
      usage.functions.increasing_bytes⟩

/-- The second of three expressions is rejected, and the third is not looked at. -/
theorem refs_second_rejected :
    refs ["a", "b +", "("] {} =
      .error (.refusedAt 2 (.refused ⟨.unexpectedEnd .expression, 3⟩)) := by
  have compiled : ofText? "a" = .ok _ :=
    Expression.ofText?_of_derivation
      (show (Lexing.ofText "a" true).Spells (Derivation.alone
        (.reference "a" .lastName .uncalled) Rule.precedence).tokens by decide +kernel)
      (by decide +kernel)
  refine ((refs_gathers ["a", "b +", "("] (by simp) {}).1 _).mpr ⟨2, _, ?_, rfl⟩
  refine ⟨["a"], "b +", ["("], rfl, rfl, ?_, by decide +kernel⟩
  exact List.forall_mem_singleton.mpr ⟨_, compiled⟩

end Command

end Formula
