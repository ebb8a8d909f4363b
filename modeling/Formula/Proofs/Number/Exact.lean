/-
**Which integers are kept exactly.**

An integer that is written with digits alone is kept as it is up to the largest of sixty-four bits.
From there on it is read as the nearest number, and whether that is the integer is decided by
comparing two texts: the number without places, and the digits without the zeros before them. The
comparison is right, since a number so large has no places (`units_of_large`), and digits without
superfluous zeros are told by their value (`digitsOf_digitsValue`).

* `Literal.isExact_iff`: the texts are the same exactly where the values are.
* `Literal.reading_exact`: what every lexeme is read as, and when that is reported.
-/

import Mathlib.Data.Rat.Cast.Order
import Formula.Proofs.Contract
import Formula.Proofs.Number.Layout
import Formula.Proofs.Number.Nearest

namespace Formula

/-! ### Digits -/

theorem digitValue_lt {digit : Char} (isDigit : digit.isDigit = true) : digitValue digit < 10 := by
  have bounds := Char.isDigit_iff_toNat.mp isDigit
  rw [digitValue]
  have nine : '9'.toNat = '0'.toNat + 9 := rfl
  omega

/-- A digit is told by its value. -/
theorem digitChar_digitValue {digit : Char} (isDigit : digit.isDigit = true) :
    Nat.digitChar (digitValue digit) = digit := by
  apply Char.toNat_inj.mp
  rw [Nat.toNat_digitChar_of_lt_ten (digitValue_lt isDigit), digitValue]
  exact Nat.add_sub_of_le (Char.isDigit_iff_toNat.mp isDigit).1

/-- Digits without a zero before them are told by their value. -/
theorem digitsOf_digitsValue {digits : List Char} (spells : Digits digits)
    (leading : digits.head? ≠ some '0') : digitsOf (digitsValue digits) = digits := by
  obtain ⟨some_digit, all⟩ := spells
  -- The last digit is taken off: it is the one that both writing and reading treat apart.
  induction digits using List.reverseRecOn with
  | nil => contradiction
  | append_singleton before digit step =>
    obtain ⟨before_digits, last⟩ := List.forall_mem_append.mp all
    have isDigit := last digit (List.mem_singleton_self digit)
    have single : digitsOf (digitValue digit) = [digit] := by
      rw [digitsOf, Nat.toDigits_of_lt_base (digitValue_lt isDigit), digitChar_digitValue isDigit]
    rw [digitsValue_concat]
    cases before with
    | nil =>
      have nothing : 10 * digitsValue [] + digitValue digit = digitValue digit := Nat.zero_add _
      rw [nothing, single, List.nil_append]
    | cons first rest =>
      have same := step leading (List.cons_ne_nil _ _) before_digits
      have positive : 0 < digitsValue (first :: rest) := by
        apply Nat.pos_of_ne_zero
        intro zero
        rw [zero] at same
        cases same
        exact leading rfl
      have joined := Nat.toDigits_append_toDigits (by decide) positive (digitValue_lt isDigit)
      rw [← digitsOf, ← digitsOf, ← digitsOf, same, single] at joined
      exact joined.symm

/-- Without the zeros before them digits are those of their value. -/
theorem withoutZeros_eq {digits : List Char} (spells : Digits digits) :
    Literal.withoutZeros digits = digitsOf (digitsValue digits) := by
  have parts := List.takeWhile_append_dropWhile (p := (· == '0')) (l := digits)
  have value : digitsValue digits = digitsValue (digits.dropWhile (· == '0')) := by
    have pieces := congrArg digitsValue parts
    rw [takeWhile_zeros, digitsValue_zeros] at pieces
    exact pieces.symm
  have leading := List.head?_dropWhile_not (· == '0') digits
  rw [value]
  -- Nothing is left of zeros alone, and the one zero that is kept is the text of their value.
  unfold Literal.withoutZeros
  generalize rest_eq : digits.dropWhile (· == '0') = rest at leading
  cases rest with
  | nil => rfl
  | cons first rest =>
    have inside : ∀ digit ∈ first :: rest, digit.isDigit = true := fun digit member =>
      spells.2 digit ((List.dropWhile_sublist _).subset (rest_eq ▸ member))
    refine (digitsOf_digitsValue ⟨List.cons_ne_nil _ _, inside⟩ ?_).symm
    rintro ⟨⟩
    cases leading

/-! ### Values -/

namespace Binary64

/-- The value of a number: its magnitude, negative with a minus. An infinity has none. -/
def value? : Binary64 → Option ℚ
  | finite negative rank => some ((if negative then -1 else 1) * (units rank / Nat.pow 2 1074 : ℚ))
  | _ => none

theorem quotient_eq_iff {units whole unit : Nat} (units_eq : units = whole * unit)
    (positive : 0 < unit) (value : Nat) : (units / unit : ℚ) = value ↔ whole = value := by
  have some_unit : (unit : ℚ) ≠ 0 := Nat.cast_ne_zero.mpr positive.ne'
  rw [units_eq, Nat.cast_mul, mul_div_cancel_right₀ _ some_unit, Nat.cast_inj]

theorem rounded_of_units {units whole unit : Nat} (units_eq : units = whole * unit)
    (positive : 0 < unit) : roundHalfEven units unit = whole := by
  rw [units_eq, roundHalfEven_exact _ positive]

/-- The value of a number without places. -/
theorem value?_of_units {rank : Fin infinityRank} {whole : Nat}
    (units_eq : units rank = whole * Nat.pow 2 1074) (value : Nat) :
    (finite false rank).value? = some (value : ℚ) ↔ whole = value := by
  have positive := two_pow_pos 1074
  rw [value?, Option.some.injEq, if_neg Bool.false_ne_true, one_mul]
  exact quotient_eq_iff units_eq positive value

/-- The text of a number without places has the digits of its value. -/
theorem wholeText_of_units {rank : Fin infinityRank} {whole : Nat}
    (units_eq : units rank = whole * Nat.pow 2 1074) :
    (finite false rank).wholeText = String.ofList (digitsOf whole) :=
  have positive := two_pow_pos 1074
  have rounded := rounded_of_units units_eq positive
  calc
    (finite false rank).wholeText
    _ = String.ofList (digitsOf (roundHalfEven (units rank) (Nat.pow 2 1074))) :=
      String.empty_append
    _ = String.ofList (digitsOf whole) :=
      congrArg (fun number => String.ofList (digitsOf number)) rounded

/-- A number as large as the first integer beyond sixty-four bits has no places: its spacing is one
at least. -/
theorem units_of_large {value : Nat} (large : 2 ^ 63 ≤ value) (places : Nat) :
    ∃ whole, units (roundedRank (value * Nat.pow 2 places) 1) = whole * Nat.pow 2 places := by
  have size : 2 ^ (63 + places) ≤ value * Nat.pow 2 places := by
    rw [Nat.pow_add]
    exact Nat.mul_le_mul_right _ large
  have some_units : value * Nat.pow 2 places ≠ 0 :=
    (Nat.mul_pos (Nat.zero_lt_of_lt large) (two_pow_pos places)).ne'
  have doublings : 63 + places ≤ (value * Nat.pow 2 places / 1).log2 := by
    rw [Nat.div_one]
    exact (Nat.le_log2 some_units).mpr size
  -- The rank counts the doublings of the spacing, of which there are as many as places to lose.
  generalize rank_eq : roundedRank (value * Nat.pow 2 places) 1 = rank
  have spaced : places ≤ scale rank := by
    have least : ((value * Nat.pow 2 places / 1).log2 - 52) * Nat.pow 2 52 ≤ rank :=
      rank_eq ▸ Nat.le_add_right _ _
    have quotient := (Nat.le_div_iff_mul_le (two_pow_pos 52)).mpr least
    unfold scale
    omega
  exact ⟨_, units_of_spacing spaced⟩

end Binary64

/-! ### Lexemes of digits -/

namespace Literal

open Binary64

variable {lexeme : String}

theorem spellsNumber_of_digits (digits : Digits lexeme.toList) : SpellsNumber lexeme.toList :=
  ⟨lexeme.toList, [], [], by simp, digits, .inl rfl, .inl rfl⟩

theorem isDigits_iff : isDigits lexeme = true ↔ Digits lexeme.toList := by
  simp [isDigits, Digits, List.all_eq_true]

/-- Digits are an integer of sixty-four bits as long as their value is one. -/
theorem integer?_of_digits (digits : Digits lexeme.toList) :
    integer? lexeme =
      if digitsValue lexeme.toList < 2 ^ 63 then some (Int64.ofInt (digitsValue lexeme.toList))
      else none := by
  have all : lexeme.toList.all Char.isDigit = true := List.all_eq_true.mpr digits.2
  have some_digit : lexeme.toList.isEmpty = false := List.isEmpty_eq_false_iff.mpr digits.1
  unfold integer?
  rw [(spellsNumber_of_digits digits).unsigned]
  simp only [some_digit, all, Bool.not_false, Bool.and_self, if_true, Bool.false_eq_true, if_false]
  generalize digitsValue lexeme.toList = value
  have bounds : (Int64.minValue.toInt ≤ (value : Int) ∧ (value : Int) ≤ Int64.maxValue.toInt) ↔
      value < 2 ^ 63 := by
    have least : Int64.minValue.toInt = -2 ^ 63 := rfl
    have greatest : Int64.maxValue.toInt = 2 ^ 63 - 1 := rfl
    omega
  simp only [bounds]

/-- Digits are read as the number nearest to their value. -/
theorem ofText?_of_digits (digits : Digits lexeme.toList) :
    ofText? lexeme = some (ofRank false (nearestRank (digitsValue lexeme.toList) 1)) := by
  have read := Decimal.ofDigits?_of_parts digits (.inl ⟨rfl, rfl⟩)
    (show ∀ next ∈ ([] : List Char).head?, next.isDigit = false ∧ next ≠ '.' by simp)
  rw [List.nil_append, List.append_nil] at read
  have numerator : (⟨digitsValue lexeme.toList, 0⟩ : Decimal).numerator =
      digitsValue lexeme.toList := Nat.mul_one _
  have rounded : ofDecimal false ⟨digitsValue lexeme.toList, 0⟩ =
      ofRank false (nearestRank (digitsValue lexeme.toList) 1) := by
    rw [ofDecimal, numerator]
    rfl
  unfold ofText?
  rw [(spellsNumber_of_digits digits).unsigned]
  dsimp only
  rw [read, ← rounded]
  rfl

theorem digitsOf_inj {first second : Nat} : digitsOf first = digitsOf second ↔ first = second := by
  refine ⟨fun same => ?_, congrArg digitsOf⟩
  rw [← digitsValue_digitsOf first, same, digitsValue_digitsOf]

/-- No digits are the word for an infinity. -/
theorem ofList_digits_ne_inf (value : Nat) : "inf" ≠ String.ofList (digitsOf value) := by
  intro same
  have letters : (String.ofList (digitsOf value)).toList = ['i', 'n', 'f'] := by rw [← same]; rfl
  rw [String.toList_ofList] at letters
  have isDigit := (Digits.digitsOf value).2 'i' (letters ▸ List.mem_cons_self)
  cases isDigit

/-- The texts are the same exactly where the values are. -/
theorem isExact_iff (digits : Digits lexeme.toList)
    (large : 2 ^ 63 ≤ digitsValue lexeme.toList) :
    isExact lexeme (ofRank false (nearestRank (digitsValue lexeme.toList) 1)) = true ↔
      (ofRank false (nearestRank (digitsValue lexeme.toList) 1)).value? =
        some (digitsValue lexeme.toList : ℚ) := by
  rw [isExact, withoutZeros_eq digits, beq_iff_eq]
  generalize digitsValue lexeme.toList = value at *
  obtain ⟨whole, rounded⟩ := units_of_large large 1074
  have units_eq := (congrArg units (nearestRank_eq value 1)).trans rounded
  unfold ofRank
  by_cases isFinite : nearestRank value 1 < infinityRank
  · have text := @wholeText_of_units ⟨_, isFinite⟩ whole units_eq
    have same_value := @value?_of_units ⟨_, isFinite⟩ whole units_eq value
    rw [dif_pos isFinite, text, same_value, String.ofList_inj, digitsOf_inj]
  · rw [dif_neg isFinite]
    refine ⟨fun same => absurd same (ofList_digits_ne_inf value), fun same => ?_⟩
    cases same

/-! ### What is read, and what is reported -/

variable {α : Type}

/-- Nothing is reported of an integer. -/
theorem events_of_integer {value : Int64} (read : ofLexeme? lexeme = some (integer value)) :
    (Request.number lexeme : Request α).events = [] := by
  rw [Request.events, inexact?, read]
  rfl

/-- Nothing is reported of what is not spelled with digits alone. -/
theorem events_of_mark (mark : ¬ Digits lexeme.toList) :
    (Request.number lexeme : Request α).events = [] := by
  have marked : isDigits lexeme = false := Bool.eq_false_iff.mpr (mt isDigits_iff.mp mark)
  rw [Request.events, inexact?]
  simp only [marked, Bool.false_and, Bool.false_eq_true, if_false]
  split <;> rfl

/-- Digits within sixty-four bits are kept, and nothing is reported. -/
theorem reading_of_small (digits : Digits lexeme.toList)
    (small : digitsValue lexeme.toList ≤ 2 ^ 63 - 1) :
    ∃ value : Int64, value.toInt = digitsValue lexeme.toList ∧
      ofLexeme? lexeme = some (integer value) := by
  refine ⟨Int64.ofInt (digitsValue lexeme.toList), ?_, ?_⟩
  · exact Int64.toInt_ofInt_of_le (by omega) (by omega)
  · rw [ofLexeme?, integer?_of_digits digits, if_pos (by omega)]

/-- Digits beyond sixty-four bits are read as the nearest number, and it is reported where that is
not their value. -/
theorem reading_of_large (digits : Digits lexeme.toList)
    (large : 2 ^ 63 - 1 < digitsValue lexeme.toList) :
    ∃ rank, IsNearest (digitsValue lexeme.toList) 1 rank ∧
      ofText? lexeme = some (ofRank false rank) ∧
      ofLexeme? lexeme = some (number (ofRank false rank)) ∧
      (Request.number lexeme : Request α).events =
        if (ofRank false rank).value? = some (digitsValue lexeme.toList : ℚ) then []
        else [.inexact lexeme (ofRank false rank)] := by
  have text := ofText?_of_digits digits
  have exact_iff := isExact_iff digits (by omega)
  have nearest := nearestRank_nearest (digitsValue lexeme.toList) Nat.one_pos
  have no_integer : integer? lexeme = none := by
    rw [integer?_of_digits digits, if_neg (by omega)]
  generalize nearestRank (digitsValue lexeme.toList) 1 = rank at *
  have read : ofLexeme? lexeme = some (number (ofRank false rank)) := by
    rw [ofLexeme?, no_integer, text]
    rfl
  refine ⟨rank, nearest, text, read, ?_⟩
  rw [Request.events, inexact?, read]
  dsimp only
  rw [isDigits_iff.mpr digits, Bool.true_and]
  by_cases exactly : isExact lexeme (ofRank false rank) = true
  · rw [if_pos (exact_iff.mp exactly), exactly]
    rfl
  · rw [if_neg (mt exact_iff.mpr exactly), Bool.eq_false_iff.mpr exactly]
    rfl

/-- What spells a number, but not with digits alone, is read as a number. -/
theorem reading_of_mark (spells : SpellsNumber lexeme.toList) (mark : ¬ Digits lexeme.toList) :
    ∃ value, ofText? lexeme = some value ∧ ofLexeme? lexeme = some (number value) := by
  have marked : ∃ character ∈ lexeme.toList, character.isDigit = false := by
    obtain ⟨whole, rest, exponent, parts, whole_digits, -⟩ := spells
    have some_character : lexeme.toList ≠ [] := by simp [parts, whole_digits.1]
    simpa [Digits, some_character] using mark
  have no_integer := integer?_of_mark spells.unsigned marked
  rw [String.ofList_toList] at no_integer
  obtain ⟨decimal, found⟩ := Option.isSome_iff_exists.mp (Decimal.ofDigits?_isSome spells)
  have text : ofText? lexeme = some (ofDecimal false decimal) := by
    simp only [ofText?, spells.unsigned, found]
  refine ⟨_, text, ?_⟩
  rw [ofLexeme?, no_integer, text]
  rfl

/-- **Numbers are exact or reported.** Digits are kept exactly up to the largest integer of
sixty-four bits, and nothing is reported of them. From there on they are read as the nearest number,
and this is reported exactly where the number is not their value. What else is read as a number of
the language is never an integer, and nothing is reported of it. -/
theorem reading_exact (lexeme : String) :
    (Digits lexeme.toList →
      (digitsValue lexeme.toList ≤ 2 ^ 63 - 1 ↔
        ∃ value : Int64, value.toInt = digitsValue lexeme.toList ∧
          ofLexeme? lexeme = some (integer value) ∧
          (Request.number lexeme : Request α).events = []) ∧
      (2 ^ 63 - 1 < digitsValue lexeme.toList ↔
        ∃ rank, IsNearest (digitsValue lexeme.toList) 1 rank ∧
          ofText? lexeme = some (ofRank false rank) ∧
          ofLexeme? lexeme = some (number (ofRank false rank)) ∧
          (Request.number lexeme : Request α).events =
            if (ofRank false rank).value? = some (digitsValue lexeme.toList : ℚ) then []
            else [.inexact lexeme (ofRank false rank)])) ∧
    (¬ Digits lexeme.toList →
      ∀ scanner : Scanner, scanner.next.1.outcome = .ok (.number lexeme) →
        ∃ value, ofText? lexeme = some value ∧ ofLexeme? lexeme = some (number value) ∧
          (Request.number lexeme : Request α).events = []) := by
  refine ⟨fun digits => ?_, fun mark scanner scanned => ?_⟩
  · rcases Nat.lt_or_ge (2 ^ 63 - 1) (digitsValue lexeme.toList) with large | small
    · have reading := @reading_of_large lexeme α digits large
      refine ⟨⟨fun small => absurd large (Nat.not_lt.mpr small), ?_⟩, fun _ => reading,
        fun _ => large⟩
      rintro ⟨value, -, integer_read, -⟩
      obtain ⟨rank, -, -, number_read, -⟩ := reading
      rw [number_read] at integer_read
      cases integer_read
    · obtain ⟨value, value_eq, read⟩ := reading_of_small digits small
      refine ⟨⟨fun _ => ⟨value, value_eq, read, events_of_integer read⟩, fun _ => small⟩,
        fun large => absurd large (Nat.not_lt.mpr small), ?_⟩
      rintro ⟨rank, -, -, number_read, -⟩
      rw [read] at number_read
      cases number_read
  · obtain ⟨value, text, read⟩ := reading_of_mark (Scanner.scan_tells scanned) mark
    exact ⟨value, text, read, events_of_mark mark⟩

/-- The first integer that is neither one of sixty-four bits nor a number, and a number with
places. -/
theorem reading_beyond_bits :
    (Digits "9223372036854775809".toList ∧
      ∃ rank, IsNearest 9223372036854775809 1 rank ∧
        ofText? "9223372036854775809" = some (ofRank false rank) ∧
        ofLexeme? "9223372036854775809" = some (number (ofRank false rank)) ∧
        (Request.number "9223372036854775809" : Request Unit).events =
          if (ofRank false rank).value? = some 9223372036854775809 then []
          else [.inexact "9223372036854775809" (ofRank false rank)]) ∧
    ¬ Digits "1.5".toList ∧ (Scanner.ofText "1.5" false).next.1.outcome = .ok (.number "1.5") ∧
      ∃ value, ofText? "1.5" = some value ∧ ofLexeme? "1.5" = some (number value) ∧
        (Request.number "1.5" : Request Unit).events = [] := by
  have digits : Digits "9223372036854775809".toList := isDigits_iff.mp rfl
  have value : digitsValue "9223372036854775809".toList = 9223372036854775809 := rfl
  have large : 2 ^ 63 - 1 < digitsValue "9223372036854775809".toList := by
    rw [value]
    decide
  have reading := ((@reading_exact Unit "9223372036854775809").1 digits).2.mp large
  rw [value] at reading
  have mark : ¬ Digits "1.5".toList := fun digits => by cases isDigits_iff.mpr digits
  have scanned : (Scanner.ofText "1.5" false).next.1.outcome = .ok (.number "1.5") := by decide
  exact ⟨⟨digits, reading⟩, mark, scanned, (reading_exact "1.5").2 mark _ scanned⟩

end Literal

end Formula
