/-
**What a layout writes is read back.**

A layout writes the significant digits of a decimal with a point among them, zeros beside them or an
exponent after them. None of this changes the value, so the text spells a number that is read as the
decimal is (`Layout.Shows`).

* `Layout.decimalText_shows`: of decimals of moderate size, whatever the layout.
* `Literal.ofLexeme?_canonical`, `Literal.ofLexeme?_toString`: numbers and integers are read back
  from their canonical texts.
-/

import Mathlib.Data.List.Induction
import Mathlib.Data.List.TakeWhile
import Formula.Proofs.Number
import Formula.Proofs.Number.ReadBack

namespace Formula

open Binary64 (nearest)

/-! ### Digits -/

theorem digitsValue_eq (digits : List Char) : digitsValue digits = Nat.ofDigitChars 10 digits 0 :=
  Nat.ofDigitChars_eq_foldl.symm

theorem digitsValue_digitsOf (number : Nat) : digitsValue (digitsOf number) = number := by
  rw [digitsValue_eq, digitsOf, Nat.ofDigitChars_toDigits (by decide) (by decide)]

theorem digitsValue_zeros (zeros : Nat) (digits : List Char) :
    digitsValue (List.replicate zeros '0' ++ digits) = digitsValue digits := by
  rw [digitsValue_eq, Nat.ofDigitChars_append, Nat.ofDigitChars_replicate_zero, Nat.mul_zero,
    ← digitsValue_eq]

theorem digitsValue_shifted (digits : List Char) (zeros : Nat) :
    digitsValue (digits ++ List.replicate zeros '0') = digitsValue digits * 10 ^ zeros := by
  rw [digitsValue_eq, Nat.ofDigitChars_append, Nat.ofDigitChars_replicate_zero, Nat.mul_comm,
    ← digitsValue_eq]

theorem Digits.digitsOf (number : Nat) : Digits (digitsOf number) :=
  ⟨Nat.toDigits_ne_nil, fun _ inside => Nat.isDigit_of_mem_toDigits (by decide) (by decide) inside⟩

theorem Digits.zero : Digits ['0'] :=
  ⟨List.cons_ne_nil _ _, List.all_eq_true.mp rfl⟩

theorem zeros_digits (zeros : Nat) : ∀ digit ∈ List.replicate zeros '0', digit.isDigit = true := by
  intro digit inside
  rw [List.eq_of_mem_replicate inside]
  rfl

theorem Digits.append {front back : List Char} (digits : Digits front)
    (more : ∀ digit ∈ back, digit.isDigit = true) : Digits (front ++ back) :=
  ⟨by simp [digits.1], fun digit inside =>
    (List.mem_append.mp inside).elim (digits.2 digit) (more digit)⟩

theorem Digits.prepend {front back : List Char} (digits : Digits back)
    (more : ∀ digit ∈ front, digit.isDigit = true) : Digits (front ++ back) :=
  ⟨by simp [digits.1], fun digit inside =>
    (List.mem_append.mp inside).elim (more digit) (digits.2 digit)⟩

/-- The zeros that a text begins with. -/
theorem takeWhile_zeros (text : List Char) :
    text.takeWhile (· == '0') = List.replicate (text.takeWhile (· == '0')).length '0' := by
  refine List.eq_replicate_of_mem fun digit inside => ?_
  have zero := List.mem_takeWhile_imp inside
  exact eq_of_beq zero

theorem digitsValue_concat (digits : List Char) (digit : Char) :
    digitsValue (digits ++ [digit]) = 10 * digitsValue digits + digitValue digit :=
  List.foldl_append

/-- The size of an exponent is the number that its digits spell, unless that is very large. -/
theorem exponentSize_eq {digits : List Char} (small : digitsValue digits < 65536) :
    Decimal.exponentSize digits = digitsValue digits := by
  induction digits using List.reverseRecOn with
  | nil => rfl
  | append_singleton digits digit step =>
    rw [digitsValue_concat] at small
    have before := step (by omega)
    rw [digitsValue_concat, Decimal.exponentSize, List.foldl_append, List.foldl_cons,
      List.foldl_nil, ← Decimal.exponentSize, before, if_pos (by omega)]

namespace Layout

/-- Only zeros are left out at the end of the significant digits. -/
theorem significant_spec {digits : List Char} (spells : Digits digits) :
    Digits (significant digits) ∧
      ∃ zeros, digits = significant digits ++ List.replicate zeros '0' := by
  obtain ⟨first, rest, rfl⟩ := List.exists_cons_of_ne_nil spells.1
  have whole := List.takeWhile_append_dropWhile (p := (· == '0')) (l := rest.reverse)
  have same : first :: rest = significant (first :: rest) ++
      List.replicate (rest.reverse.takeWhile (· == '0')).length '0' := by
    have turned := congrArg List.reverse whole
    rw [takeWhile_zeros, List.reverse_append, List.reverse_reverse, List.reverse_replicate]
      at turned
    exact (congrArg (first :: ·) turned).symm
  refine ⟨⟨List.cons_ne_nil _ _, fun digit inside => ?_⟩, _, same⟩
  rw [same] at spells
  exact spells.2 digit (List.mem_append_left _ inside)

/-! ### Texts of decimals -/

/-- Holds of a text that spells a number, though no integer, and is read as a decimal is. -/
structure Shows (text : List Char) (decimal : Decimal) : Prop where
  spells : SpellsNumber text
  mark : ∃ character ∈ text, character.isDigit = false
  read : ∃ read, Decimal.ofDigits? text = some read ∧ nearest read = nearest decimal

theorem Shows.of_nearest {text : List Char} {first second : Decimal} (shown : Shows text first)
    (same : nearest first = nearest second) : Shows text second :=
  have ⟨read, found, equal⟩ := shown.read
  ⟨shown.spells, shown.mark, read, found, equal.trans same⟩

/-- A number with places after a point. -/
theorem Shows.positional {whole places : List Char} {decimal : Decimal}
    (whole_digits : Digits whole) (digits : Digits places)
    (same : nearest ⟨digitsValue (whole ++ places), -places.length⟩ = nearest decimal) :
    Shows (whole ++ '.' :: places) decimal := by
  have stops : ∀ next ∈ ([] : List Char).head?, next.isDigit = false ∧ next ≠ '.' := by simp
  have read := Decimal.ofDigits?_of_parts whole_digits (.inr ⟨digits, rfl⟩) stops
  rw [List.append_nil] at read
  refine ⟨⟨whole, '.' :: places, [], ?_, whole_digits, ?_, .inl rfl⟩, ?_, ?_⟩
  · rw [List.append_nil]
  · exact .inr ⟨places, digits, rfl⟩
  · exact ⟨'.', by simp, rfl⟩
  · refine ⟨⟨digitsValue (whole ++ places), 0 - places.length⟩, read, ?_⟩
    rw [Int.zero_sub]
    exact same

/-- A number with an exponent. -/
theorem Shows.scientific {whole before places sign powers : List Char} {decimal : Decimal}
    (whole_digits : Digits whole)
    (before_spells : before = [] ∧ places = [] ∨ Digits places ∧ before = '.' :: places)
    (isSign : sign ∈ [[], ['+'], ['-']]) (digits : Digits powers)
    (same : nearest ⟨digitsValue (whole ++ places),
      (if sign = ['-'] then -(Decimal.exponentSize powers : Int)
        else Decimal.exponentSize powers) - places.length⟩ = nearest decimal) :
    Shows (whole ++ (before ++ 'e' :: (sign ++ powers))) decimal := by
  have exponent_spells : ∃ sign' powers', sign' ∈ [[], ['+'], ['-']] ∧ Digits powers' ∧
      'e' :: (sign ++ powers) = 'e' :: (sign' ++ powers') := ⟨sign, powers, isSign, digits, rfl⟩
  have read := Decimal.ofDigits?_of_parts whole_digits before_spells
    (Decimal.exponent_stops (.inr exponent_spells))
  rw [Decimal.exponent?_of_digits isSign digits] at read
  refine ⟨⟨whole, before, _, rfl, whole_digits, ?_, .inr exponent_spells⟩, ?_, _, read, same⟩
  · rcases before_spells with ⟨rfl, -⟩ | ⟨places_digits, rfl⟩
    · exact .inl rfl
    · exact .inr ⟨places, places_digits, rfl⟩
  · exact ⟨'e', by simp, rfl⟩

/-- The digits of a number below one. -/
theorem positional_below_one {digits : List Char} (spells : Digits digits) {exponent : Int}
    (below : exponent < 0) :
    Shows (positional digits exponent) ⟨digitsValue digits, exponent + 1 - digits.length⟩ := by
  rw [positional, if_pos below]
  show Shows (['0'] ++ '.' :: (List.replicate (-exponent - 1).toNat '0' ++ digits)) _
  refine Shows.positional Digits.zero (spells.prepend (zeros_digits _)) ?_
  have value := digitsValue_zeros ((-exponent - 1).toNat + 1) digits
  rw [List.replicate_succ] at value
  have shift : -((List.replicate (-exponent - 1).toNat '0' ++ digits).length : Int) =
      exponent + 1 - digits.length := by
    rw [List.length_append, List.length_replicate]
    omega
  rw [shift, List.singleton_append, ← List.cons_append, value]

/-- Digits that end before the point: zeros stand between them and it, and one after it. -/
theorem positional_whole {digits : List Char} (spells : Digits digits) {exponent : Int}
    (above : ¬ exponent < 0) (short : digits.length ≤ exponent.toNat + 1) :
    Shows (positional digits exponent) ⟨digitsValue digits, exponent + 1 - digits.length⟩ := by
  have nothing : digits.drop (exponent.toNat + 1) = [] := List.drop_eq_nil_of_le short
  have all : digits.take (exponent.toNat + 1) = digits := List.take_of_length_le short
  rw [positional, if_neg above]
  simp only [nothing, all, List.isEmpty_nil, if_true, List.rightpad]
  refine Shows.positional (spells.append (zeros_digits _)) Digits.zero ?_
  have value := digitsValue_shifted digits (exponent.toNat + 1 - digits.length + 1)
  rw [List.replicate_succ'] at value
  rw [List.append_assoc, value, Binary64.nearest_shift]
  congr 2
  simp only [List.length_singleton]
  omega

/-- Digits on both sides of the point. -/
theorem positional_mixed {digits : List Char} (spells : Digits digits) {exponent : Int}
    (above : ¬ exponent < 0) (long : exponent.toNat + 1 < digits.length) :
    Shows (positional digits exponent) ⟨digitsValue digits, exponent + 1 - digits.length⟩ := by
  have whole := List.take_append_drop (exponent.toNat + 1) digits
  have before : (digits.take (exponent.toNat + 1)).length = exponent.toNat + 1 := by
    rw [List.length_take]
    omega
  have after : digits.drop (exponent.toNat + 1) ≠ [] := by
    rw [Ne, List.drop_eq_nil_iff]
    omega
  have shift : -((digits.drop (exponent.toNat + 1)).length : Int) =
      exponent + 1 - digits.length := by
    rw [List.length_drop]
    omega
  rw [positional, if_neg above]
  simp only [List.isEmpty_iff, after, if_false, List.rightpad, before, Nat.sub_self,
    List.replicate_zero, List.append_nil]
  refine Shows.positional ⟨?_, fun digit inside => ?_⟩ ⟨after, fun digit inside => ?_⟩ ?_
  · exact List.ne_nil_of_length_pos (by omega)
  · exact spells.2 digit (List.mem_of_mem_take inside)
  · exact spells.2 digit (List.mem_of_mem_drop inside)
  · rw [whole, shift]

/-- The digits of a number around its point. -/
theorem positional_shows {digits : List Char} (spells : Digits digits) (exponent : Int) :
    Shows (positional digits exponent) ⟨digitsValue digits, exponent + 1 - digits.length⟩ := by
  by_cases below : exponent < 0
  · exact positional_below_one spells below
  · by_cases short : digits.length ≤ exponent.toNat + 1
    · exact positional_whole spells below short
    · exact positional_mixed spells below (Nat.lt_of_not_le short)

/-- The digits of an exponent, perhaps after zeros, are read as its size. -/
theorem powers_spec (width : Nat) {size : Nat} (small : size < 65536) :
    Digits ((digitsOf size).leftpad width '0') ∧
      Decimal.exponentSize ((digitsOf size).leftpad width '0') = size := by
  have value : digitsValue ((digitsOf size).leftpad width '0') = size := by
    rw [List.leftpad, digitsValue_zeros, digitsValue_digitsOf]
  exact ⟨(Digits.digitsOf size).prepend (zeros_digits _),
    (exponentSize_eq (value.trans_lt small)).trans value⟩

/-- The sign that is written, if one is, says whether an exponent is negative. -/
theorem exponentSign_spec (layout : Layout) (exponent : Int) :
    ∃ sign : List Char,
      sign = (if exponent < 0 then ['-'] else if layout.plusSign then ['+'] else []) ∧
        sign ∈ [[], ['+'], ['-']] ∧ (sign = ['-'] ↔ exponent < 0) := by
  refine ⟨_, rfl, ?_⟩
  by_cases below : exponent < 0
  · simp [below]
  · cases layout.plusSign <;> simp [below]

/-- The digits of a number before its exponent. -/
theorem scientific_shows (layout : Layout) {digits : List Char} (spells : Digits digits)
    {exponent : Int} (small : exponent.natAbs < 65536) :
    Shows (layout.scientific digits exponent)
      ⟨digitsValue digits, exponent + 1 - digits.length⟩ := by
  obtain ⟨first, rest, rfl⟩ := List.exists_cons_of_ne_nil spells.1
  obtain ⟨powers_digits, size⟩ := powers_spec layout.exponentWidth small
  obtain ⟨sign, written, isSign, negative⟩ := exponentSign_spec layout exponent
  unfold scientific
  generalize (digitsOf exponent.natAbs).leftpad layout.exponentWidth '0' = powers at *
  have shift : (if sign = ['-'] then -(Decimal.exponentSize powers : Int)
      else Decimal.exponentSize powers) - (rest.length : Int) =
        exponent + 1 - (first :: rest).length := by
    simp only [negative, size, List.length_cons]
    split <;> omega
  have shape : (first :: rest).take 1 ++ (if rest.isEmpty then [] else '.' :: rest) ++
      'e' :: sign ++ powers =
        [first] ++ ((if rest.isEmpty then [] else '.' :: rest) ++ 'e' :: (sign ++ powers)) := by
    simp
  dsimp only
  rw [← written]
  show Shows ((first :: rest).take 1 ++ (if rest.isEmpty then [] else '.' :: rest) ++
    'e' :: sign ++ powers) _
  rw [shape]
  have first_digit : Digits [first] := ⟨List.cons_ne_nil _ _, fun digit inside =>
    spells.2 digit (List.mem_singleton.mp inside ▸ List.mem_cons_self)⟩
  refine Shows.scientific first_digit (?_ : _ ∧ rest = [] ∨ _) isSign powers_digits ?_
  · by_cases empty : rest = []
    · exact .inl ⟨by simp [empty], empty⟩
    · exact .inr ⟨⟨empty, fun digit inside => spells.2 digit (List.mem_cons_of_mem _ inside)⟩,
        by simp [empty]⟩
  · rw [shift]
    rfl

/-- The significant digits, the first of them where the first of all digits stood, are worth as much
as all digits. -/
theorem nearest_significant {digits : List Char} (spells : Digits digits) (exponent : Int) :
    nearest ⟨digitsValue (significant digits),
        exponent + (digits.length - 1 : Nat) + 1 - (significant digits).length⟩ =
      nearest ⟨digitsValue digits, exponent⟩ := by
  obtain ⟨-, zeros, whole⟩ := significant_spec spells
  have length := congrArg List.length whole
  rw [List.length_append, List.length_replicate] at length
  have some_digit := List.length_pos_iff.mpr spells.1
  have shift : exponent + (digits.length - 1 : Nat) + 1 - (significant digits).length =
      exponent + zeros := by
    omega
  have value := digitsValue_shifted (significant digits) zeros
  rw [← whole] at value
  rw [shift, value, Binary64.nearest_shift]

/-- What a layout writes for a decimal of moderate size is read as the decimal is. -/
theorem decimalText_shows (layout : Layout) {decimal : Decimal}
    (small : (decimal.exponent + ((digitsOf decimal.coefficient).length - 1 : Nat)).natAbs <
      65536) : Shows (layout.decimalText decimal) decimal := by
  have digits := Digits.digitsOf decimal.coefficient
  have spells := (significant_spec digits).1
  have same := nearest_significant digits decimal.exponent
  rw [digitsValue_digitsOf] at same
  unfold decimalText
  dsimp only
  split
  · exact (positional_shows spells _).of_nearest same
  · exact (scientific_shows layout spells small).of_nearest same

end Layout

/-! ### Literals -/

namespace Literal

variable {lexeme : String} {negative : Bool} {unsigned : List Char}

/-- What has more than digits after its sign is no integer. -/
theorem integer?_of_split (split : splitSign lexeme.toList = (negative, unsigned))
    (mark : ∃ character ∈ unsigned, character.isDigit = false) : integer? lexeme = none := by
  obtain ⟨character, inside, no_digit⟩ := mark
  have marked : unsigned.all Char.isDigit = false :=
    List.all_eq_false.mpr ⟨character, inside, by simp [no_digit]⟩
  unfold integer?
  rw [split]
  simp [marked]

/-- What shows a decimal after its sign is read as the nearest number with that sign. -/
theorem ofLexeme?_of_split {decimal : Decimal}
    (split : splitSign lexeme.toList = (negative, unsigned))
    (shown : Layout.Shows unsigned decimal) :
    ofLexeme? lexeme = some (number (.ofRank negative (nearest decimal))) := by
  obtain ⟨-, mark, read, found, same⟩ := shown
  rw [ofLexeme?, integer?_of_split split mark]
  dsimp only
  unfold Binary64.ofText?
  rw [split]
  dsimp only
  rw [found, ← same]
  rfl

/-- Digits after a sign are an integer, if that has sixty-four bits. -/
theorem ofLexeme?_of_digits {value : Int64} (split : splitSign lexeme.toList = (negative, unsigned))
    (digits : Digits unsigned)
    (same : (if negative then -(digitsValue unsigned : Int) else digitsValue unsigned) =
      value.toInt) :
    ofLexeme? lexeme = some (integer value) := by
  have all : unsigned.all Char.isDigit = true := List.all_eq_true.mpr digits.2
  have some_digit : unsigned.isEmpty = false := List.isEmpty_eq_false_iff.mpr digits.1
  have read : integer? lexeme = some value := by
    unfold integer?
    rw [split]
    simp only [some_digit, all, Bool.not_false, Bool.and_self, if_true]
    rw [same, if_pos ⟨value.minValue_le_toInt, value.toInt_le⟩, Int64.ofInt_toInt]
  rw [ofLexeme?, read]

theorem integer?_of_mark {text : List Char} (unsigned : splitSign text = (false, text))
    (mark : ∃ character ∈ text, character.isDigit = false) :
    integer? (String.ofList text) = none :=
  integer?_of_split (by rw [String.toList_ofList, unsigned]) mark

/-- What a text shows is what it is read as. -/
theorem ofLexeme?_of_shows {text : List Char} {decimal : Decimal}
    (shown : Layout.Shows text decimal) :
    ofLexeme? (String.ofList text) = some (number (.ofRank false (nearest decimal))) :=
  ofLexeme?_of_split (by rw [String.toList_ofList, shown.spells.unsigned]) shown

theorem canonical_toList (rank : Fin infinityRank) :
    (canonical.text (.finite false rank)).toList =
      canonical.decimalText (Binary64.shortest .upper rank) := by
  show ("" ++ String.ofList _).toList = _
  rw [String.empty_append, String.toList_ofList]
  rfl

theorem canonical_shows (rank : Fin infinityRank) :
    Layout.Shows (canonical.text (.finite false rank)).toList (Binary64.shortest .upper rank) := by
  obtain ⟨above, below, length⟩ := Binary64.shortest_bounds .upper rank.isLt
  rw [canonical_toList]
  refine Layout.decimalText_shows canonical ?_
  generalize (Binary64.shortest .upper rank).exponent = exponent at *
  generalize (digitsOf _).length = length at *
  omega

/-- A number is read back from its canonical text. -/
theorem ofLexeme?_canonical (rank : Fin infinityRank) :
    ofLexeme? (canonical.text (.finite false rank)) = some (number (.finite false rank)) := by
  have read := ofLexeme?_of_shows (canonical_shows rank)
  rw [String.ofList_toList, Binary64.nearest_shortest, Binary64.ofRank, dif_pos rank.isLt] at read
  exact read

theorem toString_toList {value : Int64} (positive : 0 ≤ value.toInt) :
    (toString value.toInt).toList = digitsOf value.toInt.toNat := by
  obtain ⟨natural, same⟩ := Int.eq_ofNat_of_zero_le positive
  rw [same]
  exact Nat.toList_repr

theorem toString_spells {value : Int64} (positive : 0 ≤ value.toInt) :
    SpellsNumber (toString value.toInt).toList := by
  rw [toString_toList positive]
  exact ⟨_, [], [], (List.append_nil _).symm, Digits.digitsOf _, .inl rfl, .inl rfl⟩

/-- An integer is read back from its canonical text. -/
theorem ofLexeme?_toString {value : Int64} (positive : 0 ≤ value.toInt) :
    ofLexeme? (toString value.toInt) = some (integer value) := by
  have digits := Digits.digitsOf value.toInt.toNat
  rw [← toString_toList positive] at digits
  refine ofLexeme?_of_digits (toString_spells positive).unsigned digits ?_
  rw [toString_toList positive, digitsValue_digitsOf, if_neg Bool.false_ne_true,
    Int.toNat_of_nonneg positive]

end Literal

end Formula
