/-
**What collecting records.**

Collecting builds the tree of a text whatever its usage holds, and a usage only ever gains mentions.
What it gains does not depend on what it held before: it is what an empty usage would have been left
with (`Usage.ofText`), also when the text is refused half way.

* `compile_collecting`: the outcome and the usage that collecting comes to, from any usage.
-/

import Formula.Proofs.Fusion

namespace Formula

variable {ε : Type}

namespace Usage

theorem union_empty (usage : Usage) : usage.union {} = usage :=
  ext fun mention => by rw [mem_union, or_iff_right (not_mem_empty mention)]

theorem union_add (usage recorded : Usage) (mention : Mention) :
    usage.union (recorded.add mention) = (usage.union recorded).add mention :=
  ext fun other => by rw [mem_union, mem_add, mem_add, mem_union, or_assoc]

/-- The mentions that compiling a text records, also if it fails. -/
def ofText (text : String) (options : Options) : Usage :=
  (compile (Builder.collecting id) text options {}).context

end Usage

namespace Builder

theorem collecting_computes (ofError : Error → ε) :
    (collecting ofError).Computes HookCall.tree := by
  intro call usage
  cases call <;> rfl

/-- What a hook adds to a usage is what it adds to a part of it. -/
theorem collecting_views (ofError : Error → ε) (usage : Usage) (call : HookCall Expression) :
    ((collecting ofError).hook call).Views usage.union ((collecting ofError).hook call) := by
  intro recorded
  cases call with
  | reference target => exact Prod.ext rfl (usage.union_add recorded (.variable target.name))
  | call function arguments =>
    exact Prod.ext rfl (usage.union_add recorded (.function function.name))
  | _ => rfl

end Builder

/-- Collecting gives a text its tree and adds the mentions of the text, whatever the usage holds. -/
theorem compile_collecting (text : String) (options : Options) (usage : Usage) :
    (compile (Builder.collecting id) text options usage).outcome =
        Expression.ofText? text options ∧
      (compile (Builder.collecting id) text options usage).context =
        usage.union (Usage.ofText text options) := by
  constructor
  · rw [compile_finished (Builder.collecting_computes id)]
    cases Expression.ofText? text options with
    | ok tree => exact congrArg Except.ok (Expression.id_isFold.fold_eq tree)
    | error error => rfl
  · have viewed := compile_view usage.union rfl (Builder.collecting_views id usage) text options {}
    rw [usage.union_empty] at viewed
    exact (congrArg Prod.snd viewed).symm

end Formula
