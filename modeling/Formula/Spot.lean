/-
**Places in a text.**

A spot is a place in a text: the byte offset at which it lies and the characters after it. Offsets
count UTF-8 bytes, so a step over a character adds the size of its encoding.

* `Spot.span_append`, `Spot.span_all`, `Spot.span_stops`: a run of a class of characters is the
  longest one, and nothing is lost.
* `Spot.LeadsTo`: characters are passed over from one spot to another, and the offset counts their
  bytes.
-/

namespace Formula

/-- The number of UTF-8 bytes of a run of characters. -/
def byteLength (characters : List Char) : Nat :=
  characters.foldr (fun character size => character.utf8Size + size) 0

theorem byteLength_cons (character : Char) (rest : List Char) :
    byteLength (character :: rest) = character.utf8Size + byteLength rest :=
  rfl

theorem byteLength_append (first second : List Char) :
    byteLength (first ++ second) = byteLength first + byteLength second := by
  induction first with
  | nil => exact (Nat.zero_add _).symm
  | cons character rest step =>
    rw [List.cons_append, byteLength_cons, byteLength_cons, step, Nat.add_assoc]

/-- A place in a text, by its byte offset and the characters after it. -/
structure Spot where
  offset : Nat
  rest : List Char
  deriving DecidableEq, Inhabited

namespace Spot

/-- The beginning of a text. -/
def start (text : String) : Spot :=
  ⟨0, text.toList⟩

/-- The spot after the next `count` characters. -/
def skip (spot : Spot) (count : Nat) : Spot :=
  ⟨spot.offset + byteLength (spot.rest.take count), spot.rest.drop count⟩

/-- The longest run of a class of characters from here on, and the spot after it. -/
def span (spot : Spot) (belongs : Char → Bool) : List Char × Spot :=
  let run := spot.rest.takeWhile belongs
  (run, ⟨spot.offset + byteLength run, spot.rest.dropWhile belongs⟩)

theorem span_append (spot : Spot) (belongs : Char → Bool) :
    (spot.span belongs).1 ++ (spot.span belongs).2.rest = spot.rest :=
  List.takeWhile_append_dropWhile

theorem span_all (spot : Spot) (belongs : Char → Bool) :
    ∀ character ∈ (spot.span belongs).1, belongs character = true :=
  fun _ inside => List.all_eq_true.mp (List.all_takeWhile) _ inside

theorem span_stops (spot : Spot) (belongs : Char → Bool) :
    ∀ character ∈ (spot.span belongs).2.rest.head?, belongs character = false := by
  intro character first
  have stopped := List.head?_dropWhile_not belongs spot.rest
  rw [span] at first
  simp only [Option.mem_def] at first
  simpa [first] using stopped

theorem span_length_lt {spot : Spot} {belongs : Char → Bool} {character : Char} {rest : List Char}
    (here : spot.rest = character :: rest) (member : belongs character = true) :
    (spot.span belongs).2.rest.length < spot.rest.length := by
  simp only [span, here, List.dropWhile_cons_of_pos member, List.length_cons]
  exact Nat.lt_succ_of_le (List.dropWhile_sublist _).length_le

/-! ### Passing over characters -/

/-- Holds of a spot and one that is reached from it by passing over characters. -/
def LeadsTo (spot after : Spot) : Prop :=
  ∃ passed, spot.rest = passed ++ after.rest ∧ after.offset = spot.offset + byteLength passed

namespace LeadsTo

theorem refl (spot : Spot) : spot.LeadsTo spot :=
  ⟨[], rfl, rfl⟩

theorem trans {spot middle after : Spot} (first : spot.LeadsTo middle)
    (second : middle.LeadsTo after) : spot.LeadsTo after := by
  obtain ⟨passed, same, offset⟩ := first
  obtain ⟨more, same', offset'⟩ := second
  refine ⟨passed ++ more, by rw [same, same', List.append_assoc], ?_⟩
  rw [offset', offset, byteLength_append, Nat.add_assoc]

theorem cons {offset : Nat} {character : Char} {rest : List Char} {after : Spot}
    (leads : (⟨offset + character.utf8Size, rest⟩ : Spot).LeadsTo after) :
    (⟨offset, character :: rest⟩ : Spot).LeadsTo after :=
  trans ⟨[character], rfl, rfl⟩ leads

theorem skip (spot : Spot) (count : Nat) : spot.LeadsTo (spot.skip count) :=
  ⟨spot.rest.take count, (List.take_append_drop ..).symm, rfl⟩

theorem span (spot : Spot) (belongs : Char → Bool) : spot.LeadsTo (spot.span belongs).2 :=
  ⟨(spot.span belongs).1, (spot.span_append belongs).symm, rfl⟩

theorem length_le {spot after : Spot} (leads : spot.LeadsTo after) :
    after.rest.length ≤ spot.rest.length := by
  obtain ⟨passed, same, -⟩ := leads
  rw [same, List.length_append]
  exact Nat.le_add_left ..

theorem offset_le {spot after : Spot} (leads : spot.LeadsTo after) :
    spot.offset ≤ after.offset := by
  obtain ⟨passed, -, offset⟩ := leads
  rw [offset]
  exact Nat.le_add_right ..

end LeadsTo

end Spot

end Formula
