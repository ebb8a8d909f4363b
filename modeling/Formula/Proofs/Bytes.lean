/-
**Texts in the order of their bytes.**

Texts are ordered character by character, by code points. This is the order of their UTF-8 bytes:
of two characters the one with the smaller code point has the encoding that comes first, and no
encoding begins another one, so whatever follows the two has no part in it.

* `Text.encode_lt`: the encodings of two characters, with anything after them.
* `Text.lt_iff_bytes`: the order of texts is that of their bytes.
-/

namespace Formula.Text

open String (utf8EncodeChar)

/-- The UTF-8 bytes of a text. -/
def bytes (text : String) : List UInt8 :=
  text.toByteArray.data.toList

theorem bytes_eq (text : String) : bytes text = text.toList.flatMap utf8EncodeChar := by
  rw [bytes, ← String.utf8Encode_toList, List.utf8Encode, List.data_toByteArray]

/-! ### Characters -/

theorem ofNat_lt {first second : Nat} (small : first < 256) (small' : second < 256) :
    UInt8.ofNat first < UInt8.ofNat second ↔ first < second := by
  rw [UInt8.lt_iff_toNat_lt, UInt8.toNat_ofNat_of_lt' small, UInt8.toNat_ofNat_of_lt' small']

theorem ofNat_inj {first second : Nat} (small : first < 256) (small' : second < 256) :
    UInt8.ofNat first = UInt8.ofNat second ↔ first = second := by
  rw [← UInt8.toNat_inj, UInt8.toNat_ofNat_of_lt' small, UInt8.toNat_ofNat_of_lt' small']

/-- The encoding of the lesser character comes first, whatever follows. -/
theorem encode_lt {first second : Char} (less : first < second) (rest more : List UInt8) :
    utf8EncodeChar first ++ rest < utf8EncodeChar second ++ more := by
  have points : first.val.toNat < second.val.toNat := less
  have bound : second.val.toNat < 0x110000 := by
    have valid := second.valid
    simp only [UInt32.isValidChar, Nat.isValidChar] at valid
    omega
  unfold utf8EncodeChar
  generalize first.val.toNat = low at *
  generalize second.val.toNat = high at *
  -- The bytes after the first one are digits of base 64.
  have two (point : Nat) : point / 4096 = point / 64 / 64 := by omega
  have three (point : Nat) : point / 262144 = point / 64 / 64 / 64 := by omega
  simp only [two, three]
  repeat' split
  all_goals
    simp (disch := omega) only [List.cons_append, List.nil_append, List.cons_lt_cons_iff, ofNat_lt,
      ofNat_inj]
    omega

/-! ### Texts -/

theorem encode_lt_of_lt {first second : List Char} (less : first < second) :
    first.flatMap utf8EncodeChar < second.flatMap utf8EncodeChar := by
  induction first generalizing second with
  | nil =>
    cases second with
    | nil => cases less
    | cons character rest =>
      obtain ⟨byte, bytes, encoded⟩ := List.exists_cons_of_ne_nil
        (String.utf8EncodeChar_ne_nil : utf8EncodeChar character ≠ [])
      rw [List.flatMap_cons, encoded]
      exact List.nil_lt_cons byte _
  | cons character rest step =>
    cases second with
    | nil => cases less
    | cons other more =>
      rw [List.flatMap_cons, List.flatMap_cons]
      rcases List.cons_lt_cons_iff.mp less with before | ⟨rfl, after⟩
      · exact encode_lt before _ _
      · exact List.append_left_lt (step after)

/-- The order of texts is the order of their bytes. -/
theorem lt_iff_bytes {first second : String} : first < second ↔ bytes first < bytes second := by
  rw [bytes_eq, bytes_eq, String.lt_iff]
  constructor
  · exact encode_lt_of_lt
  · intro before
    apply Decidable.byContradiction
    intro not_less
    rcases List.le_iff_lt_or_eq.mp (List.not_lt.mp not_less) with after | same
    · exact List.lt_asymm before (encode_lt_of_lt after)
    · rw [same] at before
      exact List.lt_irrefl _ before

end Formula.Text
