/-
**Names stand for references.**

References are ordered segment by segment, and their names are ordered as texts, byte by byte. The
two orders are one, since a dot comes before every character of a segment: where a segment ends, the
name goes on with a dot or not at all, and both come before any longer segment. So a set of names is
as good as a set of references, and lists them in the same order.

* `Reference.name_lt_iff`: the order of references is that of their names.
* `SortedSet.toList_ofList_map`: a sorted set keyed by what keeps the order.
* `Reference.name_faithful`: comparing names, and gathering them in a usage.
-/

import Formula.Proofs.Bytes
import Formula.Proofs.Scanner.Spelling
import Formula.Proofs.Written.Leaves
import Formula.Usage

namespace Formula

open Scanner (isNamePart)

/-! ### Sets that are keyed -/

/-- What keeps the order of the members of a set takes the sorted list of the members to the sorted
list of the keys. -/
theorem SortedSet.toList_ofList_map {α β : Type} [LT α] [DecidableLT α]
    [Trans (α := α) (· < ·) (· < ·) (· < ·)] [Std.Trichotomous (α := α) (· < ·)] [LT β]
    [DecidableLT β] [Trans (α := β) (· < ·) (· < ·) (· < ·)] [Std.Trichotomous (α := β) (· < ·)]
    [Std.Irrefl (α := β) (· < ·)] {key : α → β} {members : List α}
    (keeps : ∀ first ∈ members, ∀ second ∈ members, first < second → key first < key second) :
    (ofList (members.map key)).toList = (ofList members).toList.map key := by
  have member {element : α} : element ∈ (ofList members).toList ↔ element ∈ members := mem_ofList
  have sorted : ((ofList members).toList.map key).Pairwise (· < ·) := by
    refine List.pairwise_map.mpr ((ofList members).increasing.imp_of_mem fun one other less => ?_)
    exact keeps _ (member.mp one) _ (member.mp other) less
  have same : ofList (members.map key) = ⟨(ofList members).toList.map key, sorted⟩ := by
    refine ext fun value => ?_
    rw [mem_ofList, mem_def]
    simp only [List.mem_map, member]
  rw [same]

/-- What keeps the order both ways, and is the same for the same, compares alike. -/
theorem compare_congr {α β : Type} [LT α] [DecidableLT α] [DecidableEq α]
    [Std.Trichotomous (α := α) (· < ·)] [LT β] [DecidableLT β] [DecidableEq β]
    [Std.Irrefl (α := β) (· < ·)] {first second : α} {key other : β}
    (less : first < second ↔ key < other) (greater : second < first ↔ other < key)
    (same : first = second → key = other) :
    compareOfLessAndEq first second = compareOfLessAndEq key other := by
  have equal : first = second ↔ key = other := by
    refine ⟨same, fun keys => Std.Trichotomous.trichotomous _ _ (less.not.mpr ?_)
      (greater.not.mpr ?_)⟩
    · exact keys ▸ Std.Irrefl.irrefl key
    · exact keys ▸ Std.Irrefl.irrefl key
  simp only [compareOfLessAndEq, less, equal]

namespace Reference

/-! ### The order of references -/

/-- Of two references that are not the same one is less than the other. -/
theorem eq_of_not_lt {first second : Reference} (not_less : ¬ first < second)
    (not_greater : ¬ second < first) : first = second :=
  congrArg mk (List.le_antisymm (List.not_lt.mp not_greater) (List.not_lt.mp not_less))

instance : Std.Trichotomous (α := Reference) (· < ·) :=
  ⟨fun _ _ => eq_of_not_lt⟩

/-- The order of references is that of their segments, one after another, by their bytes. -/
theorem lt_iff_bytes {first second : Reference} :
    first < second ↔ first.segments.map Text.bytes < second.segments.map Text.bytes := by
  have rises (one other : String) (less : one < other) : Text.bytes one < Text.bytes other :=
    Text.lt_iff_bytes.mp less
  constructor
  · exact List.map_lt rises
  · intro less
    apply Decidable.byContradiction
    intro not_less
    rcases List.le_iff_lt_or_eq.mp (List.not_lt.mp not_less) with greater | same
    · exact List.lt_asymm less (List.map_lt rises greater)
    · rw [same] at less
      exact List.lt_irrefl _ less

/-- Holds of references of one segment or more, made of characters that can go on a name. -/
def Plain (reference : Reference) : Prop :=
  reference.segments ≠ [] ∧
    ∀ segment ∈ reference.segments, ∀ character ∈ segment.toList, isNamePart character = true

instance (reference : Reference) : Decidable reference.Plain :=
  decidable_of_iff (reference.segments ≠ [] ∧
      reference.segments.all fun segment => segment.toList.all isNamePart)
    (by simp only [Plain, List.all_eq_true])

theorem dot_lt {character : Char} (part : isNamePart character = true) : '.' < character := by
  have bounds := toNat_of_isNamePart part
  have dot : '.'.toNat = 46 := rfl
  show '.'.toNat < character.toNat
  omega

/-- A lesser segment comes first, whatever follows the two, if that begins with a dot. -/
theorem segment_lt {first second rest : List Char} (less : first < second)
    (parts : ∀ character ∈ second, isNamePart character = true)
    (dotted : ∀ next ∈ rest.head?, next = '.') (more : List Char) :
    first ++ rest < second ++ more := by
  induction first generalizing second with
  | nil =>
    cases second with
    | nil => cases less
    | cons character second =>
      cases rest with
      | nil => exact List.nil_lt_cons _ _
      | cons next rest =>
        obtain rfl := dotted next rfl
        exact List.cons_lt_cons_iff.mpr (.inl (dot_lt (parts character List.mem_cons_self)))
  | cons character first step =>
    cases second with
    | nil => cases less
    | cons other second =>
      have other_parts := (List.forall_mem_cons.mp parts).2
      refine List.cons_lt_cons_iff.mpr ((List.cons_lt_cons_iff.mp less).imp_right ?_)
      exact fun ⟨same, after⟩ => ⟨same, step after other_parts⟩

/-- The lesser of two lists of segments comes first when each is joined by dots. -/
theorem joined_lt {first second : String} {rest more : List String}
    (less : first :: rest < second :: more)
    (parts : ∀ segment ∈ second :: more, ∀ character ∈ segment.toList,
      isNamePart character = true) :
    (first.toList ++ rest.flatMap fun next => ".".toList ++ next.toList) <
      second.toList ++ more.flatMap fun next => ".".toList ++ next.toList := by
  obtain ⟨second_parts, more_parts⟩ := List.forall_mem_cons.mp parts
  induction rest generalizing first second more with
  | nil =>
    rcases List.cons_lt_cons_iff.mp less with before | ⟨rfl, after⟩
    · exact segment_lt (String.lt_iff.mp before) second_parts (by simp) _
    · cases more with
      | nil => cases after
      | cons next more => exact List.append_left_lt (List.nil_lt_cons _ _)
  | cons segment rest step =>
    rcases List.cons_lt_cons_iff.mp less with before | ⟨rfl, after⟩
    · exact segment_lt (String.lt_iff.mp before) second_parts (by rintro next ⟨⟩; rfl) _
    · cases more with
      | nil => cases after
      | cons next more =>
        obtain ⟨next_parts, later_parts⟩ := List.forall_mem_cons.mp more_parts
        have joined := step after more_parts next_parts later_parts
        rw [List.flatMap_cons, List.flatMap_cons, List.append_assoc, List.append_assoc]
        exact List.append_left_lt (List.append_left_lt joined)

variable {first second : Reference}

theorem name_lt (one : first.Plain) (other : second.Plain) (less : first < second) :
    first.name < second.name := by
  obtain ⟨_ | ⟨head, rest⟩⟩ := first
  · exact absurd rfl one.1
  obtain ⟨_ | ⟨other_head, more⟩⟩ := second
  · exact absurd rfl other.1
  rw [String.lt_iff, name, name, intercalate_toList, intercalate_toList]
  exact joined_lt less other.2

/-- The order of references is the order of their names. -/
theorem name_lt_iff (one : first.Plain) (other : second.Plain) :
    first < second ↔ first.name < second.name := by
  refine ⟨name_lt one other, fun less => Decidable.byContradiction fun not_less => ?_⟩
  by_cases greater : second < first
  · exact String.lt_irrefl _ (String.lt_trans less (name_lt other one greater))
  · rw [eq_of_not_lt not_less greater] at less
    exact String.lt_irrefl _ less

/-- A name determines its reference. -/
theorem eq_of_name_eq (one : first.Plain) (other : second.Plain)
    (same : first.name = second.name) : first = second := by
  refine eq_of_not_lt (fun less => ?_) fun greater => ?_
  · exact absurd (name_lt one other less) (same ▸ String.lt_irrefl _)
  · exact absurd (name_lt other one greater) (same ▸ String.lt_irrefl _)

/-- References compare as their segments do, byte by byte. -/
theorem compare_segments (first second : Reference) :
    compareOfLessAndEq first second =
      compareOfLessAndEq (first.segments.map Text.bytes) (second.segments.map Text.bytes) :=
  compare_congr lt_iff_bytes lt_iff_bytes fun same => by rw [same]

/-- References compare as their names do, byte by byte. -/
theorem compare_name (one : first.Plain) (other : second.Plain) :
    compareOfLessAndEq first second =
      compareOfLessAndEq (Text.bytes first.name) (Text.bytes second.name) :=
  compare_congr ((name_lt_iff one other).trans Text.lt_iff_bytes)
    ((name_lt_iff other one).trans Text.lt_iff_bytes) fun same => by rw [same]

end Reference

/-! ### Usages -/

/-- The usage of variables and functions, all of them known by their names. -/
def Usage.ofReferences (targets functions : List Reference) : Usage :=
  .addAll {} (targets.map (fun target => .variable target.name) ++
    functions.map fun function => .function function.name)

namespace Reference

variable {targets functions : List Reference}

theorem mem_ofReferences {letters : String} :
    (.variable letters ∈ Usage.ofReferences targets functions ↔ letters ∈ targets.map name) ∧
      (.function letters ∈ Usage.ofReferences targets functions ↔
        letters ∈ functions.map name) := by
  simp [Usage.ofReferences]

/-- References without their names are no more than with them. -/
theorem mem_map_name {target : Reference} (plain : ∀ member ∈ targets, member.Plain)
    (known : target.Plain) : target.name ∈ targets.map name ↔ target ∈ targets := by
  refine ⟨fun inside => ?_, List.mem_map_of_mem⟩
  obtain ⟨member, member_inside, same⟩ := List.mem_map.mp inside
  exact eq_of_name_eq (plain member member_inside) known same ▸ member_inside

/-- The sorted names are the names of the sorted references. -/
theorem toList_ofList_name (plain : ∀ target ∈ targets, target.Plain) :
    (SortedSet.ofList (targets.map name)).toList = (SortedSet.ofList targets).toList.map name :=
  SortedSet.toList_ofList_map fun first one second other =>
    name_lt (plain first one) (plain second other)

theorem variables_ofReferences :
    (Usage.ofReferences targets functions).variables = SortedSet.ofList (targets.map name) :=
  SortedSet.ext fun _ => mem_ofReferences.1.trans SortedSet.mem_ofList.symm

theorem functions_ofReferences :
    (Usage.ofReferences targets functions).functions = SortedSet.ofList (functions.map name) :=
  SortedSet.ext fun _ => mem_ofReferences.2.trans SortedSet.mem_ofList.symm

/-- **Names stand for references.** References compare as their names do, where references are
compared segment by segment and all texts byte by byte; so a name determines its reference. A usage
that is given the names of references holds the names of these references only, and lists them in
the order in which the references themselves are sorted. -/
theorem name_faithful :
    (∀ first second : Reference, first.Plain → second.Plain →
      compareOfLessAndEq (first.segments.map Text.bytes) (second.segments.map Text.bytes) =
          compareOfLessAndEq (Text.bytes first.name) (Text.bytes second.name) ∧
        compareOfLessAndEq first second =
          compareOfLessAndEq (Text.bytes first.name) (Text.bytes second.name) ∧
        (first.name = second.name → first = second)) ∧
    ∀ targets functions : List Reference, (∀ target ∈ targets, target.Plain) →
      (∀ function ∈ functions, function.Plain) →
        let usage := Usage.ofReferences targets functions
        (∀ target : Reference, target.Plain →
          (.variable target.name ∈ usage ↔ target ∈ targets) ∧
            (.function target.name ∈ usage ↔ target ∈ functions)) ∧
        usage.variables.toList = (SortedSet.ofList targets).toList.map name ∧
        usage.functions.toList = (SortedSet.ofList functions).toList.map name := by
  refine ⟨fun first second one other => ?_, fun targets functions plain functions_plain => ?_⟩
  · have names := compare_name one other
    exact ⟨(compare_segments first second).symm.trans names, names, eq_of_name_eq one other⟩
  · refine ⟨fun target known => ⟨?_, ?_⟩, ?_, ?_⟩
    · exact mem_ofReferences.1.trans (mem_map_name plain known)
    · exact mem_ofReferences.2.trans (mem_map_name functions_plain known)
    · rw [variables_ofReferences, toList_ofList_name plain]
    · rw [functions_ofReferences, toList_ofList_name functions_plain]

/-- A segment that goes on with a digit comes after one that ends, whatever comes after the dot. -/
theorem name_faithful_digit :
    Plain ⟨["a1"]⟩ ∧ Plain ⟨["a", "z"]⟩ ∧
      compareOfLessAndEq (⟨["a", "z"]⟩ : Reference) ⟨["a1"]⟩ =
        compareOfLessAndEq (Text.bytes "a.z") (Text.bytes "a1") ∧
      (Usage.ofReferences [⟨["a1"]⟩, ⟨["a", "z"]⟩] []).variables.toList = ["a.z", "a1"] := by
  have longer : Plain ⟨["a1"]⟩ := by decide +kernel
  have dotted : Plain ⟨["a", "z"]⟩ := by decide +kernel
  have listed := (name_faithful.2 [⟨["a1"]⟩, ⟨["a", "z"]⟩] []
    (List.forall_mem_cons.mpr ⟨longer, List.forall_mem_singleton.mpr dotted⟩)
    (List.forall_mem_nil _)).2.1
  refine ⟨longer, dotted, (name_faithful.1 _ _ dotted longer).2.1, listed.trans ?_⟩
  decide +kernel

end Reference

end Formula
