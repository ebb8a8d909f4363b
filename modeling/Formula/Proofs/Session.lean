/-
**What a session records.**

Nothing is lost between the steps of a session, and nothing gets from one usage into another. The
usage of the compiler holds what was inserted and what was recorded since it was last emptied, each
text under the options that were in force; the usage of a caller holds what was recorded in it.

* `Session.Tracks.mem_run`: from what one step adds and erases, what a run has added.
* `Session.run_reordered`: steps that only gather may be made in any order.
* `Session.run_records`: the usages after any run, and the results of its compilations.
-/

import Formula.Proofs.Collecting
import Formula.Session

namespace Formula.Session

variable {ι : Type}

/-! ### What a step does -/

/-- Holds of the mentions that a step adds to the usage of the compiler, under the options in
force. -/
def Step.Adds (step : Step ι) (options : Options) (mention : Usage.Mention) : Prop :=
  match step with
  | .compile text => mention ∈ Usage.ofText text options
  | .insert mentions => mention ∈ mentions
  | _ => False

/-- Holds of the mentions that a step adds to the usage of a caller, under the options in force. -/
def Step.AddsIn (caller : ι) (step : Step ι) (options : Options) (mention : Usage.Mention) : Prop :=
  ∃ text, step = .compileIn text caller ∧ mention ∈ Usage.ofText text options

/-- The options that a step leaves in force. -/
def Step.options (step : Step ι) (before : Options) : Options :=
  match step with
  | .setOptions options => options
  | .rebuild => {}
  | _ => before

/-- The options that are in force after steps. -/
def inForce (options : Options) (steps : List (Step ι)) : Options :=
  steps.foldl (fun options step => step.options options) options

/-- Holds of the steps that compile or insert, and so only add mentions. -/
def Step.Gathers : Step ι → Prop
  | .compile _ => True
  | .compileIn _ _ => True
  | .insert _ => True
  | _ => False

/-- Steps that only gather leave the options as they are. -/
theorem inForce_of_gathers {options : Options} {steps : List (Step ι)}
    (gathers : ∀ step ∈ steps, step.Gathers) : inForce options steps = options := by
  induction steps with
  | nil => rfl
  | cons step steps rest =>
    obtain ⟨gather, later⟩ := List.forall_mem_cons.mp gathers
    have same : step.options options = options := by
      cases step <;> first | rfl | exact gather.elim
    rw [inForce, List.foldl_cons, same]
    exact rest later

variable [DecidableEq ι] (session : Session ι) (step : Step ι)

theorem step_options : (session.step step).2.options = step.options session.options := by
  cases step <;> rfl

theorem step_compile (text : String) :
    session.step (.compile text) =
      (some (Expression.ofText? text session.options),
        { session with usage := session.usage.union (.ofText text session.options) }) := by
  obtain ⟨outcome, usage⟩ := compile_collecting text session.options session.usage
  rw [← outcome, ← usage]
  rfl

theorem step_compileIn (text : String) (caller : ι) :
    session.step (.compileIn text caller) =
      (some (Expression.ofText? text session.options),
        session.withCaller caller
          ((session.callers caller).union (.ofText text session.options))) := by
  obtain ⟨outcome, usage⟩ := compile_collecting text session.options (session.callers caller)
  rw [← outcome, ← usage]
  rfl

/-- Holds of a usage of every session that gains the mentions that a step adds, and keeps those that
it has unless the step erases them. -/
def Tracks (view : Session ι → Usage) (erases : Step ι → Prop)
    (adds : Step ι → Options → Usage.Mention → Prop) : Prop :=
  ∀ session step mention, mention ∈ view (session.step step).2 ↔
    mention ∈ view session ∧ ¬ erases step ∨ adds step session.options mention

theorem usage_tracks : Tracks (usage : Session ι → Usage) (· = .clear) Step.Adds := by
  intro session step mention
  cases step with
  | compile text => rw [step_compile, Usage.mem_union]; simp [Step.Adds, or_comm]
  | insert mentions => simp [Session.step, withCompiler, compiler, Step.Adds, or_comm]
  | clear => simp [Session.step, withCompiler, Step.Adds]
  | _ => simp [Session.step, withCompiler, withCaller, compiler, Step.Adds]

/-- No step empties the usage of a caller. -/
theorem callers_tracks (caller : ι) :
    Tracks (fun session : Session ι => session.callers caller) (fun _ => False)
      (Step.AddsIn caller) := by
  intro session step mention
  cases step with
  | compileIn text other =>
    rw [step_compileIn]
    by_cases same : caller = other
    · subst same
      simp [withCaller, Step.AddsIn, or_comm]
    · simp [withCaller, Step.AddsIn, same, Ne.symm same]
  | _ => simp [Session.step, withCompiler, compiler, Step.AddsIn]

/-! ### Runs -/

theorem run_cons (steps : List (Step ι)) :
    session.run (step :: steps) = (session.step step).2.run steps :=
  rfl

theorem run_options (steps : List (Step ι)) :
    (session.run steps).options = inForce session.options steps := by
  induction steps generalizing session with
  | nil => rfl
  | cons step steps rest => rw [run_cons, rest, step_options]; rfl

section Usages

variable {view : Session ι → Usage} {erases : Step ι → Prop}
  {adds : Step ι → Options → Usage.Mention → Prop} (tracks : Tracks view erases adds)

include tracks

/-- After a run a usage has the mentions that it had before, if none of the steps erases them, and
those that a step has added and no later one erases. -/
theorem Tracks.mem_run (steps : List (Step ι)) (mention : Usage.Mention) :
    mention ∈ view (session.run steps) ↔
      mention ∈ view session ∧ (∀ step ∈ steps, ¬ erases step) ∨
        ∃ before step after, steps = before ++ step :: after ∧ (∀ later ∈ after, ¬ erases later) ∧
          adds step (inForce session.options before) mention := by
  induction steps generalizing session with
  | nil => simp [run]
  | cons step steps rest =>
    -- A split of all steps is the one before the first step, or a split of the rest.
    rw [run_cons, rest, tracks, step_options]
    constructor
    · rintro (⟨⟨kept, stays⟩ | added, later⟩ | ⟨before, last, after, rfl, later, added⟩)
      · exact .inl ⟨kept, List.forall_mem_cons.mpr ⟨stays, later⟩⟩
      · exact .inr ⟨[], step, steps, rfl, later, added⟩
      · exact .inr ⟨step :: before, last, after, rfl, later, added⟩
    · rintro (⟨kept, stays⟩ | ⟨before, last, after, split, later, added⟩)
      · obtain ⟨stays, later⟩ := List.forall_mem_cons.mp stays
        exact .inl ⟨.inl ⟨kept, stays⟩, later⟩
      · rcases List.cons_eq_append_iff.mp split with ⟨rfl, same⟩ | ⟨before, rfl, rfl⟩
        · cases same
          exact .inl ⟨.inr added, later⟩
        · exact .inr ⟨before, last, after, rfl, later, added⟩

theorem Tracks.mem_run_of_empty (empty : view session = {}) (steps : List (Step ι))
    (mention : Usage.Mention) :
    mention ∈ view (session.run steps) ↔
      ∃ before step after, steps = before ++ step :: after ∧ (∀ later ∈ after, ¬ erases later) ∧
        adds step (inForce session.options before) mention := by
  rw [tracks.mem_run, empty]
  exact or_iff_right fun kept => Usage.not_mem_empty mention kept.1

/-- A run of steps that only gather adds what each of the steps adds. -/
theorem Tracks.mem_run_of_gathers (keeps : ∀ step, step.Gathers → ¬ erases step)
    {steps : List (Step ι)} (gathers : ∀ step ∈ steps, step.Gathers) (mention : Usage.Mention) :
    mention ∈ view (session.run steps) ↔
      mention ∈ view session ∨ ∃ step ∈ steps, adds step session.options mention := by
  have unchanged {before after : List (Step ι)} {added : Step ι}
      (gathers : ∀ step ∈ before ++ added :: after, step.Gathers) :
      inForce session.options before = session.options :=
    inForce_of_gathers fun step member => gathers step (List.mem_append_left _ member)
  rw [tracks.mem_run session]
  constructor
  · rintro (⟨kept, -⟩ | ⟨before, step, after, rfl, -, added⟩)
    · exact .inl kept
    · rw [unchanged gathers] at added
      exact .inr ⟨step, List.mem_append_right _ List.mem_cons_self, added⟩
  · rintro (kept | ⟨step, member, added⟩)
    · exact .inl ⟨kept, fun step member => keeps step (gathers step member)⟩
    · obtain ⟨before, after, rfl⟩ := List.append_of_mem member
      refine .inr ⟨before, step, after, rfl, fun later member => ?_, ?_⟩
      · exact keeps later (gathers later (List.mem_append_right _ (List.mem_cons_of_mem _ member)))
      · rw [unchanged gathers]
        exact added

end Usages

/-- Steps that only gather may be made in any order, and any number of times. -/
theorem run_reordered {first second : List (Step ι)} (gathers : ∀ step ∈ first, step.Gathers)
    (same : ∀ step, step ∈ first ↔ step ∈ second) : session.run first = session.run second := by
  have gathers_second : ∀ step ∈ second, step.Gathers :=
    fun step member => gathers step ((same step).mpr member)
  ext1
  · refine Usage.ext fun mention => ?_
    have keeps (step : Step ι) (gather : step.Gathers) : ¬ step = .clear := by
      rintro rfl
      exact gather
    rw [usage_tracks.mem_run_of_gathers session keeps gathers,
      usage_tracks.mem_run_of_gathers session keeps gathers_second]
    simp only [same]
  · rw [run_options, run_options, inForce_of_gathers gathers, inForce_of_gathers gathers_second]
  · funext caller
    refine Usage.ext fun mention => ?_
    rw [(callers_tracks caller).mem_run_of_gathers session (fun _ _ => not_false) gathers,
      (callers_tracks caller).mem_run_of_gathers session (fun _ _ => not_false) gathers_second]
    simp only [same]

/-- **What a session records.** After any run, the usage of the compiler has the mentions that were
inserted, and those of the texts that were compiled under the options then in force, since it was
last emptied; the usage of a caller has those of the texts that were compiled in it. A compilation
gives a text its tree or refuses it, whatever is in the usages, and leaves all usages but one as
they are. So steps that only gather may be made in any order. -/
theorem run_records :
    (∀ (steps : List (Step ι)) (mention : Usage.Mention),
      (mention ∈ (({} : Session ι).run steps).usage ↔
        ∃ before step after, steps = before ++ step :: after ∧ Step.clear ∉ after ∧
          step.Adds (inForce {} before) mention) ∧
      ∀ caller, mention ∈ (({} : Session ι).run steps).callers caller ↔
        ∃ before text after, steps = before ++ .compileIn text caller :: after ∧
          mention ∈ Usage.ofText text (inForce {} before)) ∧
      (∀ (session : Session ι) (text : String),
        (session.step (.compile text)).1 = some (Expression.ofText? text session.options) ∧
          (session.step (.compile text)).2.callers = session.callers) ∧
      (∀ (session : Session ι) (text : String) (caller : ι),
        (session.step (.compileIn text caller)).1 =
            some (Expression.ofText? text session.options) ∧
          (session.step (.compileIn text caller)).2.usage = session.usage ∧
          ∀ other ≠ caller,
            (session.step (.compileIn text caller)).2.callers other = session.callers other) ∧
      (∀ (session : Session ι) (steps : List (Step ι)),
        (session.run steps).options = inForce session.options steps) ∧
      ∀ (session : Session ι) (first second : List (Step ι)), (∀ step ∈ first, step.Gathers) →
        (∀ step, step ∈ first ↔ step ∈ second) → session.run first = session.run second := by
  refine ⟨fun steps mention => ⟨?_, fun caller => ?_⟩, fun session text => ?_,
    fun session text caller => ?_, run_options, fun session _ _ => run_reordered session⟩
  · rw [usage_tracks.mem_run_of_empty {} rfl]
    constructor
    · rintro ⟨before, step, after, split, later, added⟩
      exact ⟨before, step, after, split, fun member => later _ member rfl, added⟩
    · rintro ⟨before, step, after, split, never, added⟩
      exact ⟨before, step, after, split, fun later member same => never (same ▸ member), added⟩
  · rw [(callers_tracks caller).mem_run_of_empty {} rfl]
    constructor
    · rintro ⟨before, step, after, split, -, text, rfl, added⟩
      exact ⟨before, text, after, split, added⟩
    · rintro ⟨before, text, after, split, added⟩
      exact ⟨before, .compileIn text caller, after, split, fun _ _ => not_false, text, rfl, added⟩
  · rw [step_compile]
    exact ⟨rfl, rfl⟩
  · rw [step_compileIn]
    exact ⟨rfl, rfl, fun other different => if_neg different⟩

/-- A text that is refused at its end has recorded its variable, and it does not matter whether it
comes before or after another one. -/
theorem run_records_refused :
    .variable "a" ∈
        (({} : Session Bool).run [.insert [.function "f"], .clear, .compile "a +"]).usage ∧
      ({} : Session Bool).run [.compile "a +", .compileIn "b" true] =
        ({} : Session Bool).run [.compileIn "b" true, .compile "a +"] := by
  constructor
  · have recorded : "a" ∈ (Usage.ofText "a +" {}).variables.toList := by decide +kernel
    exact (run_records.1 _ _).1.mpr ⟨[.insert [.function "f"], .clear], .compile "a +", [], rfl,
      List.not_mem_nil, recorded⟩
  · refine run_records.2.2.2.2 {} _ _ (fun step member => ?_) fun step => ?_
    · rcases List.mem_cons.mp member with rfl | last
      · trivial
      · cases List.mem_singleton.mp last
        trivial
    · exact (List.Perm.swap _ _ []).mem_iff

end Formula.Session
