/-
**Finite sets as sorted lists.**

A set of ordered things is kept as the list of its members in increasing order, each once. The view
of a set is membership.

* `mem_insert`, `mem_insertAll`, `mem_ofList`, `mem_union`: what the operations do to the members.
* `ext`: a set is determined by its members.
-/

namespace Formula

/-- A finite set, as the strictly increasing list of its members. -/
structure SortedSet (α : Type) [LT α] where
  toList : List α
  increasing : toList.Pairwise (· < ·)

namespace SortedSet

variable {α : Type} [LT α]

/-- The set without members. -/
def empty : SortedSet α :=
  ⟨[], .nil⟩

instance : Inhabited (SortedSet α) :=
  ⟨empty⟩

instance : Membership α (SortedSet α) :=
  ⟨fun set member => member ∈ set.toList⟩

/-- Holds of the set without members. -/
def isEmpty (set : SortedSet α) : Bool :=
  set.toList.isEmpty

theorem mem_def {member : α} {set : SortedSet α} : member ∈ set ↔ member ∈ set.toList :=
  Iff.rfl

@[simp] theorem not_mem_empty (member : α) : ¬ member ∈ (empty : SortedSet α) := by
  simp [mem_def, empty]

variable [DecidableLT α]

/-- Puts a member into its place in an increasing list, unless one that is neither less nor greater
is there. -/
def place (member : α) : List α → List α
  | [] => [member]
  | head :: rest =>
    if head < member then head :: place member rest
    else if member < head then member :: head :: rest
    else head :: rest

theorem mem_of_mem_place {member other : α} {list : List α} (placed : other ∈ place member list) :
    other = member ∨ other ∈ list := by
  induction list with
  | nil => exact .inl (List.mem_singleton.mp placed)
  | cons head rest step =>
    rw [place] at placed
    split at placed
    · rcases List.mem_cons.mp placed with rfl | inner
      · exact .inr List.mem_cons_self
      · exact (step inner).imp id (List.mem_cons_of_mem _)
    · split at placed
      · exact List.mem_cons.mp placed
      · exact .inr placed

variable [Trans (α := α) (· < ·) (· < ·) (· < ·)]

theorem pairwise_place {member : α} {list : List α} (sorted : list.Pairwise (· < ·)) :
    (place member list).Pairwise (· < ·) := by
  induction list with
  | nil => exact List.pairwise_singleton _ _
  | cons head rest step =>
    obtain ⟨least, tail⟩ := List.pairwise_cons.mp sorted
    rw [place]
    split
    · rename_i less
      refine List.pairwise_cons.mpr ⟨fun other placed => ?_, step tail⟩
      rcases mem_of_mem_place placed with rfl | inner
      · exact less
      · exact least other inner
    · split
      · rename_i less
        refine List.pairwise_cons.mpr ⟨fun other inner => ?_, sorted⟩
        rcases List.mem_cons.mp inner with rfl | inner
        · exact less
        · exact Trans.trans less (least other inner)
      · exact sorted

/-- Adds a member to a set. -/
def insert (set : SortedSet α) (member : α) : SortedSet α :=
  ⟨place member set.toList, pairwise_place set.increasing⟩

/-- Adds every member of a list to a set. -/
def insertAll (set : SortedSet α) (members : List α) : SortedSet α :=
  members.foldl insert set

/-- The set of the members of a list. -/
def ofList (members : List α) : SortedSet α :=
  empty.insertAll members

/-- The set of the members of two sets. -/
def union (first second : SortedSet α) : SortedSet α :=
  first.insertAll second.toList

/-! ### Members -/

omit [DecidableLT α] in
/-- A set is determined by its members. -/
theorem ext {first second : SortedSet α} [Std.Irrefl (α := α) (· < ·)]
    (same : ∀ member, member ∈ first ↔ member ∈ second) : first = second := by
  obtain ⟨list, sorted⟩ := first
  obtain ⟨other, other_sorted⟩ := second
  simp only [mem_def] at same
  congr 1
  induction list generalizing other with
  | nil =>
    cases other with
    | nil => rfl
    | cons head rest => exact absurd ((same head).mpr List.mem_cons_self) List.not_mem_nil
  | cons head rest step =>
    cases other with
    | nil => exact absurd ((same head).mp List.mem_cons_self) List.not_mem_nil
    | cons other_head other_rest =>
      obtain ⟨least, tail⟩ := List.pairwise_cons.mp sorted
      obtain ⟨other_least, other_tail⟩ := List.pairwise_cons.mp other_sorted
      have heads : head = other_head := by
        rcases List.mem_cons.mp ((same head).mp List.mem_cons_self) with equal | inside
        · exact equal
        · rcases List.mem_cons.mp ((same other_head).mpr List.mem_cons_self)
            with equal | other_inside
          · exact equal.symm
          · exact absurd (Trans.trans (least _ other_inside) (other_least _ inside))
              (Std.Irrefl.irrefl head)
      subst heads
      refine congrArg (head :: ·) (step tail other_rest other_tail fun member => ?_)
      constructor
      · intro inside
        rcases List.mem_cons.mp ((same member).mp (List.mem_cons_of_mem _ inside)) with rfl | found
        · exact absurd (least _ inside) (Std.Irrefl.irrefl member)
        · exact found
      · intro inside
        rcases List.mem_cons.mp ((same member).mpr (List.mem_cons_of_mem _ inside)) with rfl | found
        · exact absurd (other_least _ inside) (Std.Irrefl.irrefl member)
        · exact found

variable [Std.Trichotomous (α := α) (· < ·)]

omit [Trans (α := α) (· < ·) (· < ·) (· < ·)] in
theorem mem_place {member other : α} {list : List α} :
    other ∈ place member list ↔ other = member ∨ other ∈ list := by
  refine ⟨mem_of_mem_place, ?_⟩
  induction list with
  | nil => simp [place]
  | cons head rest step =>
    rw [place]
    split
    · simp only [List.mem_cons]
      rintro (equal | equal | inside)
      · exact .inr (step (.inl equal))
      · exact .inl equal
      · exact .inr (step (.inr inside))
    · split
      · exact List.mem_cons.mpr
      · rename_i not_less not_greater
        have equal : member = head := Std.Trichotomous.trichotomous _ _ not_greater not_less
        rintro (rfl | inside)
        · exact equal ▸ List.mem_cons_self
        · exact inside

@[simp] theorem mem_insert {member other : α} {set : SortedSet α} :
    other ∈ set.insert member ↔ other = member ∨ other ∈ set :=
  mem_place

@[simp] theorem mem_insertAll {other : α} {set : SortedSet α} {members : List α} :
    other ∈ set.insertAll members ↔ other ∈ members ∨ other ∈ set := by
  induction members generalizing set with
  | nil => simp [insertAll]
  | cons member members step =>
    rw [insertAll, List.foldl_cons, ← insertAll, step, mem_insert, List.mem_cons]
    constructor
    · rintro (inside | equal | old)
      · exact .inl (.inr inside)
      · exact .inl (.inl equal)
      · exact .inr old
    · rintro ((equal | inside) | old)
      · exact .inr (.inl equal)
      · exact .inl inside
      · exact .inr (.inr old)

@[simp] theorem mem_ofList {member : α} {members : List α} :
    member ∈ ofList members ↔ member ∈ members := by
  simp [ofList]

@[simp] theorem mem_union {member : α} {first second : SortedSet α} :
    member ∈ first.union second ↔ member ∈ second ∨ member ∈ first :=
  mem_insertAll

end SortedSet

end Formula
