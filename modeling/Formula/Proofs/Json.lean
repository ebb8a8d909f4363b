/-
**Which expressions JSON keeps apart.**

Two JSON values are equal if they are of one kind and equal part by part; floating-point numbers are
compared as numbers, and an integer is never one of them (`Json.same`). So JSON loses three things:
the sign of a zero, all that is not finite, which becomes null, and where the segments of a
reference begin and end, if a segment holds a dot or there is none at all. Expressions without those
(`Vocabulary.distinct`) are told apart.

* `Reference.name_injective`: a dotted name determines its segments.
* `Literal.toJson_same`, `Expression.toJson_same`: equal JSON is that of equal expressions, by
  induction on the expression. The name of a field tells what kind of expression it is.
* `Expression.toJson_distinguishes`: what JSON keeps apart, all expressions of texts among it.
-/

import Formula.Expression.Json
import Formula.Proofs.Image

namespace Formula

/-! ### Equality of JSON values -/

namespace Json

mutual

/-- Equality of JSON values. Numbers are compared as numbers and an integer is never a
floating-point number; arrays are compared in order, and objects field by field, since their fields
are in the order of their names. -/
def same : Json → Json → Bool
  | null, null => true
  | integer first, integer second => first == second
  | number first, number second => first.sameNumber second
  | text first, text second => first == second
  | array items, array others => sameItems items others
  | object fields, object others => sameFields fields others
  | _, _ => false

/-- Equality of lists of JSON values. -/
def sameItems : List Json → List Json → Bool
  | [], [] => true
  | first :: rest, second :: others => first.same second && sameItems rest others
  | _, _ => false

/-- Equality of lists of fields. -/
def sameFields : List (String × Json) → List (String × Json) → Bool
  | [], [] => true
  | (name, value) :: rest, (other, second) :: others =>
    name == other && value.same second && sameFields rest others
  | _, _ => false

end

end Json

/-! ### What is kept apart -/

/-- Holds of the literals that are neither a number with its sign bit set nor what is no number. -/
def Literal.SignClear : Literal → Prop
  | number value => value.SignClear
  | _ => True

/-- Holds of references of one segment or more, none of which has a dot. -/
def Reference.Dotless (reference : Reference) : Prop :=
  reference.segments ≠ [] ∧ ∀ segment ∈ reference.segments, '.' ∉ segment.toList

instance (reference : Reference) : Decidable reference.Dotless :=
  inferInstanceAs (Decidable (_ ∧ _))

/-- The vocabulary of the expressions that JSON keeps apart. -/
def Vocabulary.distinct : Vocabulary where
  literal := Literal.SignClear
  reference := Reference.Dotless
  operator _ _ := True

open Scanner (isNamePart)
open Vocabulary (distinct)

/-! ### References -/

namespace Reference

variable {first second : Reference}

/-- The parts of a dotted name between the dots are the segments. -/
theorem splitOn_name (dotless : first.Dotless) :
    first.name.toList.splitOn '.' = first.segments.map String.toList := by
  obtain ⟨some_segment, each⟩ := dotless
  have clear : ∀ letters ∈ first.segments.map String.toList, '.' ∉ letters :=
    List.forall_mem_map.mpr each
  have some_letters : first.segments.map String.toList ≠ [] :=
    fun none => some_segment (List.map_eq_nil_iff.mp none)
  rw [name, String.toList_intercalate]
  exact List.splitOn_intercalate '.' clear some_letters

/-- A dotted name determines its segments. -/
theorem name_injective (one : first.Dotless) (other : second.Dotless)
    (same : first.name = second.name) : first = second := by
  have parts : first.segments.map String.toList = second.segments.map String.toList := by
    rw [← splitOn_name one, ← splitOn_name other, same]
  have segments : first.segments = second.segments :=
    (List.map_inj_right fun _ _ => String.toList_inj.mp).mp parts
  exact congrArg mk segments

theorem name_eq_iff (one : first.Dotless) (other : second.Dotless) :
    first.name = second.name ↔ first = second :=
  ⟨name_injective one other, congrArg name⟩

theorem Named.dotless (named : first.Named) : first.Dotless := by
  refine ⟨named.1, fun segment member dotted => ?_⟩
  have part : isNamePart '.' = true := (named.2 segment member).1.parts _ dotted
  exact absurd part (by decide)

end Reference

/-! ### Literals -/

namespace Literal

/-- The literals that are kept apart are of four kinds. -/
theorem SignClear.kinds {value : Literal} (clear : value.SignClear) :
    (∃ whole, value = integer whole) ∨ (∃ content, value = text content) ∨
      value = number (.infinite false) ∨ ∃ rank, value = number (.finite false rank) := by
  cases value with
  | integer whole => exact .inl ⟨whole, rfl⟩
  | text content => exact .inr (.inl ⟨content, rfl⟩)
  | number value =>
    cases value with
    | nan => cases clear
    | infinite negative =>
      cases clear
      exact .inr (.inr (.inl rfl))
    | finite negative rank =>
      cases clear
      exact .inr (.inr (.inr ⟨rank, rfl⟩))

/-- Literals are told apart, by their kinds and then by their values: only the infinity is null. -/
theorem toJson_same {first second : Literal} (one : first.SignClear) (other : second.SignClear) :
    first.toJson.same second.toJson = true ↔ first = second := by
  obtain ⟨whole, rfl⟩ | ⟨content, rfl⟩ | rfl | ⟨rank, rfl⟩ := one.kinds <;>
    obtain ⟨whole, rfl⟩ | ⟨content, rfl⟩ | rfl | ⟨rank, rfl⟩ := other.kinds <;>
      simp [toJson, Json.same, Binary64.sameNumber, Int64.toInt_inj]

end Literal

/-! ### Expressions -/

namespace Expression

/-- Lists of expressions are told apart if the expressions in them are. -/
theorem toJsonAll_same {arguments others : List Expression}
    (each : ∀ argument ∈ arguments, ∀ {other : Expression}, other.Within distinct →
      (argument.toJson.same other.toJson = true ↔ argument = other))
    (within : ∀ other ∈ others, other.Within distinct) :
    Json.sameItems (toJsonAll arguments) (toJsonAll others) = true ↔ arguments = others := by
  induction arguments generalizing others with
  | nil => cases others <;> simp [toJsonAll, Json.sameItems]
  | cons argument arguments step =>
    cases others with
    | nil => simp [toJsonAll, Json.sameItems]
    | cons other others =>
      obtain ⟨here, more⟩ := List.forall_mem_cons.mp each
      obtain ⟨other_within, others_within⟩ := List.forall_mem_cons.mp within
      rw [toJsonAll, toJsonAll, Json.sameItems, Bool.and_eq_true, here other_within,
        step more others_within, List.cons.injEq]

/-- Expressions are told apart. -/
theorem toJson_same {first second : Expression} (one : first.Within distinct)
    (other : second.Within distinct) :
    first.toJson.same second.toJson = true ↔ first = second := by
  -- Expressions of different kinds differ in the name of a field or in how many there are.
  induction one generalizing second with
  | literal known =>
    cases other with
    | literal other_known =>
      simp [toJson, Json.same, Json.sameFields, Literal.toJson_same known other_known]
    | _ => simp [toJson, Json.same, Json.sameFields]
  | reference known =>
    cases other with
    | reference other_known =>
      simp [toJson, Json.same, Json.sameFields, Reference.name_eq_iff known other_known]
    | _ => simp [toJson, Json.same, Json.sameFields]
  | call known _ each =>
    cases other with
    | call other_known others =>
      simp [toJson, Json.same, Json.sameFields, Reference.name_eq_iff known other_known,
        toJsonAll_same each others, and_comm]
    | _ => simp [toJson, Json.same, Json.sameFields]
  | unary _ _ inside =>
    cases other with
    | unary _ other_inside =>
      simp [toJson, Json.same, Json.sameFields, inside other_inside, and_comm]
    | _ => simp [toJson, Json.same, Json.sameFields]
  | binary _ _ _ before after =>
    cases other with
    | binary _ other_before other_after =>
      simp [toJson, Json.same, Json.sameFields, before other_before, after other_after]
    | _ => simp [toJson, Json.same, Json.sameFields]

/-- The expressions of texts are among those that are told apart. -/
theorem ofText?_distinct {text : String} {options : Options} {tree : Expression}
    (compiled : ofText? text options = .ok tree) : tree.Within distinct := by
  refine (ofText?_within compiled).mono (fun value signless => ?_)
    (fun _ => Reference.Named.dotless) fun _ _ _ => trivial
  cases value with
  | number => exact signless
  | _ => trivial

/-- **JSON keeps expressions apart.** If the numbers of two expressions have a clear sign bit, and
their references have segments without dots, as is so for the expressions of texts, then their JSON
is equal if and only if they are. In particular integers, numbers and texts are never confused,
nothing else is taken for the infinity, which becomes null, and a dotted name determines its
segments. -/
theorem toJson_distinguishes :
    (∀ first second : Expression, first.Within distinct → second.Within distinct →
      (first.toJson.same second.toJson = true ↔ first = second)) ∧
    (∀ (text : String) (options : Options) (tree : Expression),
      ofText? text options = .ok tree → tree.Within distinct) ∧
    (∀ (whole : Int64) (value : Binary64) (content : String),
      (literal (.integer whole)).toJson.same (literal (.number value)).toJson = false ∧
      (literal (.integer whole)).toJson.same (literal (.text content)).toJson = false ∧
      (literal (.number value)).toJson.same (literal (.text content)).toJson = false) ∧
    (∀ other : Expression, other.Within distinct →
      (literal (.number (.infinite false))).toJson.same other.toJson = true →
        other = literal (.number (.infinite false))) ∧
    (∀ first second : Reference, first.Dotless → second.Dotless → first.name = second.name →
      first = second) := by
  refine ⟨fun _ _ => toJson_same, fun _ _ _ => ofText?_distinct, ?_, ?_, ?_⟩
  · intro whole value content
    rcases value with _ | _ | _ <;>
      simp [toJson, Literal.toJson, Json.same, Json.sameFields]
  · intro other within same
    have infinity : (literal (.number (.infinite false))).Within distinct :=
      .literal (Eq.refl false)
    exact ((toJson_same infinity within).mp same).symm
  · exact fun _ _ => Reference.name_injective

/-- Calls of the same function are told apart by an argument, here the infinity and the text of the
word that stands for it in JSON. -/
theorem toJson_distinguishes_call :
    let first : Expression := .call ⟨["a", "b"]⟩ [.literal (.number (.infinite false))]
    let second : Expression := .call ⟨["a", "b"]⟩ [.literal (.text "null")]
    first.Within distinct ∧ second.Within distinct ∧ first.toJson.same second.toJson = false := by
  intro first second
  have dotless : Reference.Dotless ⟨["a", "b"]⟩ := by decide +kernel
  have one : first.Within distinct :=
    .call dotless (List.forall_mem_singleton.mpr (.literal (Eq.refl false)))
  have other : second.Within distinct :=
    .call dotless (List.forall_mem_singleton.mpr (.literal trivial))
  have differ : first ≠ second := by simp [first, second]
  refine ⟨one, other, Bool.eq_false_iff.mpr fun same => differ ?_⟩
  exact (toJson_distinguishes.1 first second one other).mp same

/-- What is left out of the vocabulary is lost: where segments end, and what is not finite. -/
example : (reference ⟨["a.b"]⟩).toJson.same (reference ⟨["a", "b"]⟩).toJson = true := by
  decide +kernel

example :
    (literal (.number .nan)).toJson.same (literal (.number (.infinite false))).toJson = true :=
  rfl

end Expression

end Formula
