/-
**How numbers are read.**

A number is read part by part: digits, a fraction if a digit follows the point, and an exponent if
its letter follows. Each part has the next character that ends it (`FractionAt`, `ExponentAt`), so
the parts are read in one way, and together they are the longest number there is.

* `Scanner.scanNumber_reads`, `Scanner.scanNumber_of_spelledBy`: what is read spells a number that
  does not go on, and all such numbers are read.
-/

import Formula.Proofs.Scanner
import Formula.Proofs.Scanner.Spelling

namespace Formula

open Scanner

/-! ### Parts of a number -/

/-- A run of a class of characters is passed over up to what comes after it. -/
theorem Spot.span_of_run {spot : Spot} {belongs : Char → Bool} {run rest : List Char}
    (here : spot.rest = run ++ rest) (all : ∀ character ∈ run, belongs character = true)
    (stops : ∀ next ∈ rest.head?, belongs next = false) :
    spot.span belongs = (run, ⟨spot.offset + byteLength run, rest⟩) := by
  obtain ⟨taken, dropped⟩ := takeWhile_run all stops
  rw [span, here, taken, dropped]

/-- Holds of a fraction, perhaps none, that does not go on. -/
def FractionAt (fraction rest : List Char) : Prop :=
  fraction = [] ∧ (∀ place more, rest = '.' :: place :: more → place.isDigit = false) ∨
    ∃ places, Digits places ∧ fraction = '.' :: places ∧
      ∀ next ∈ rest.head?, next.isDigit = false

/-- Holds of a sign, perhaps none, that is the whole of it. -/
def SignAt (sign rest : List Char) : Prop :=
  sign = [] ∧ (∀ next ∈ rest.head?, next ∉ ['+', '-']) ∨ sign = ['+'] ∨ sign = ['-']

/-- Holds of an exponent, perhaps none, that does not go on. -/
def ExponentAt (exponent rest : List Char) : Prop :=
  exponent = [] ∧ (∀ next ∈ rest.head?, next ∉ ['e', 'E']) ∨
    ∃ mark sign digits, mark ∈ ['e', 'E'] ∧ sign ∈ [[], ['+'], ['-']] ∧ Digits digits ∧
      exponent = mark :: (sign ++ digits) ∧ ∀ next ∈ rest.head?, next.isDigit = false

/-- Holds of the parts of a number that does not go on. -/
structure NumberAt (whole fraction exponent rest : List Char) : Prop where
  digits : Digits whole
  fractionAt : FractionAt fraction (exponent ++ rest)
  exponentAt : ExponentAt exponent rest
  stops : ∀ next ∈ (fraction ++ (exponent ++ rest)).head?, next.isDigit = false

namespace NumberAt

variable {whole fraction exponent rest : List Char}

theorem isNumeral (numberAt : NumberAt whole fraction exponent rest) :
    IsNumeral (whole ++ (fraction ++ exponent)) := by
  refine isNumeral_iff.mpr ⟨whole, fraction, exponent, rfl, numberAt.digits, ?_, ?_⟩
  · rcases numberAt.fractionAt with ⟨rfl, -⟩ | ⟨places, digits, rfl, -⟩
    · exact .inl rfl
    · exact .inr ⟨places, digits, rfl⟩
  · rcases numberAt.exponentAt with
      ⟨rfl, -⟩ | ⟨mark, sign, digits, is_mark, is_sign, spells, rfl, -⟩
    · exact .inl rfl
    · exact .inr ⟨mark, sign, digits, is_mark, is_sign, spells, rfl⟩

theorem no_digit (numberAt : NumberAt whole fraction exponent rest) :
    ∀ next ∈ rest.head?, next.isDigit = false := by
  rcases numberAt.exponentAt with ⟨rfl, -⟩ | ⟨mark, sign, digits, -, -, -, -, stops⟩
  · rcases numberAt.fractionAt with ⟨rfl, -⟩ | ⟨places, -, -, stops⟩
    · exact numberAt.stops
    · exact stops
  · exact stops

theorem fraction_kept (numberAt : NumberAt whole fraction exponent rest) :
    fraction.map smallMark = fraction := by
  refine map_smallMark_fraction ?_
  rcases numberAt.fractionAt with ⟨rfl, -⟩ | ⟨places, digits, rfl, -⟩
  · exact .inl rfl
  · exact .inr ⟨places, digits, rfl⟩

/-- A number whose parts do not go on is the longest there is. -/
theorem endsAt (numberAt : NumberAt whole fraction exponent rest) (lexeme : String)
    (no_letter : ∀ next ∈ rest.head?, ¬ IsLetter next) :
    (Token.number lexeme).EndsAt (whole ++ (fraction ++ exponent)) rest := by
  refine ⟨no_letter, ?_⟩
  rintro more some_more ⟨tail, rfl⟩ longer
  obtain ⟨next, more, rfl⟩ := List.exists_cons_of_ne_nil some_more
  obtain ⟨rfl, digits, place, first, is_digit⟩ := numberAt.isNumeral.point
    (numberAt.no_digit next rfl) (no_letter next rfl) longer
  have fraction_digits : ∀ character ∈ fraction, character.isDigit = true := fun character inside =>
    digits.2 character (List.mem_append_right _ (List.mem_append_left _ inside))
  have exponent_digits : ∀ character ∈ exponent, character.isDigit = true := fun character inside =>
    digits.2 character (List.mem_append_right _ (List.mem_append_right _ inside))
  rcases numberAt.exponentAt with ⟨rfl, -⟩ | ⟨mark, sign, _, is_mark, -, -, rfl, -⟩
  · rcases numberAt.fractionAt with ⟨rfl, other⟩ | ⟨places, -, rfl, -⟩
    · have some_more : more ≠ [] := by
        rintro rfl
        cases first
      obtain ⟨place', more, rfl⟩ := List.exists_cons_of_ne_nil some_more
      cases first
      rw [other place (more ++ tail) rfl] at is_digit
      cases is_digit
    · cases fraction_digits '.' List.mem_cons_self
  · have digit := exponent_digits mark List.mem_cons_self
    rw [(exponentMark is_mark).2.1] at digit
    cases digit

end NumberAt

/-- A number that a digit is added to is a number. -/
theorem IsNumeral.concat {spelling : List Char} {digit : Char} (numeral : IsNumeral spelling)
    (is_digit : digit.isDigit = true) : IsNumeral (spelling ++ [digit]) := by
  have added {digits : List Char} (spells : Digits digits) : Digits (digits ++ [digit]) := by
    refine ⟨List.append_ne_nil_of_left_ne_nil spells.1 _, ?_⟩
    rw [List.forall_mem_append, List.forall_mem_singleton]
    exact ⟨spells.2, is_digit⟩
  obtain ⟨whole, fraction, exponent, rfl, digits, fraction_spells, exponent_spells⟩ :=
    isNumeral_iff.mp numeral
  rw [isNumeral_iff]
  rcases exponent_spells with rfl | ⟨mark, sign, places, is_mark, is_sign, spells, rfl⟩
  · rcases fraction_spells with rfl | ⟨places, spells, rfl⟩
    · exact ⟨whole ++ [digit], [], [], by simp, added digits, .inl rfl, .inl rfl⟩
    · exact ⟨whole, '.' :: (places ++ [digit]), [], by simp, digits,
        .inr ⟨_, added spells, rfl⟩, .inl rfl⟩
  · exact ⟨whole, fraction, mark :: (sign ++ (places ++ [digit])), by simp, digits,
      fraction_spells, .inr ⟨mark, sign, _, is_mark, is_sign, added spells, rfl⟩⟩

/-- The parts of the longest number do not go on. -/
theorem NumberAt.of_endsAt {lexeme : String} {spelling rest : List Char}
    (numeral : IsNumeral spelling) (ends : (Token.number lexeme).EndsAt spelling rest) :
    ∃ whole fraction exponent, spelling = whole ++ (fraction ++ exponent) ∧
      NumberAt whole fraction exponent rest := by
  obtain ⟨no_letter, longest⟩ := ends
  have no_digit : ∀ next ∈ rest.head?, next.isDigit = false := by
    intro next first
    obtain ⟨tail, rfl⟩ := List.head?_eq_some_iff.mp first
    refine eq_false_of_ne_true fun is_digit => ?_
    exact longest [next] (List.cons_ne_nil _ _) ⟨tail, rfl⟩ (numeral.concat is_digit)
  obtain ⟨whole, fraction, exponent, rfl, digits, fraction_spells, exponent_spells⟩ :=
    isNumeral_iff.mp numeral
  have exponent_stops : ∀ next ∈ (exponent ++ rest).head?, next.isDigit = false := by
    rcases exponent_spells with rfl | ⟨mark, sign, places, is_mark, -, -, rfl⟩
    · exact no_digit
    · rintro next ⟨⟩
      exact (exponentMark is_mark).2.1
  refine ⟨whole, fraction, exponent, rfl, digits, ?_, ?_, ?_⟩
  · rcases fraction_spells with rfl | ⟨places, spells, rfl⟩
    · refine .inl ⟨rfl, fun place more same => eq_false_of_ne_true fun is_digit => ?_⟩
      rcases exponent_spells with rfl | ⟨mark, sign, places, is_mark, -, -, rfl⟩
      · cases show rest = '.' :: place :: more from same
        refine longest ['.', place] (List.cons_ne_nil _ _) ⟨more, rfl⟩ (isNumeral_iff.mpr ?_)
        exact ⟨whole, ['.', place], [], by simp, digits,
          .inr ⟨[place], ⟨List.cons_ne_nil _ _, by simpa using is_digit⟩, rfl⟩, .inl rfl⟩
      · obtain ⟨rfl, -⟩ := List.cons.inj same
        exact absurd is_mark (by decide)
    · exact .inr ⟨places, spells, rfl, exponent_stops⟩
  · rcases exponent_spells with rfl | ⟨mark, sign, places, is_mark, is_sign, spells, rfl⟩
    · exact .inl ⟨rfl, fun next first is_mark => no_letter next first (exponentMark is_mark).1⟩
    · exact .inr ⟨mark, sign, places, is_mark, is_sign, spells, rfl, no_digit⟩
  · rcases fraction_spells with rfl | ⟨places, -, rfl⟩
    · exact exponent_stops
    · rintro next ⟨⟩
      decide

namespace Scanner

/-! ### Fractions -/

theorem scanFraction_reads (spot : Spot) :
    spot.rest = (scanFraction spot).1 ++ (scanFraction spot).2.rest ∧
      FractionAt (scanFraction spot).1 (scanFraction spot).2.rest := by
  unfold scanFraction
  split
  · rename_i place more here
    have next : (spot.skip 1).rest = place :: more := by rw [Spot.skip, here]; rfl
    split
    · rename_i isDigit
      have digits := digits_span next isDigit
      have all := (spot.skip 1).span_append Char.isDigit
      refine ⟨?_, .inr ⟨_, digits, rfl, (spot.skip 1).span_stops Char.isDigit⟩⟩
      rw [List.cons_append, all, next, here]
    · rename_i no_digit
      refine ⟨rfl, .inl ⟨rfl, fun other more' same => ?_⟩⟩
      rw [here] at same
      cases same
      exact eq_false_of_ne_true no_digit
  · rename_i other
    exact ⟨rfl, .inl ⟨rfl, fun place more same => absurd same (other place more)⟩⟩

theorem scanFraction_of_fractionAt {spot : Spot} {fraction rest : List Char}
    (here : spot.rest = fraction ++ rest) (fractionAt : FractionAt fraction rest) :
    scanFraction spot = (fraction, ⟨spot.offset + byteLength fraction, rest⟩) := by
  rcases fractionAt with ⟨rfl, other⟩ | ⟨places, digits, rfl, stops⟩
  · have nothing : scanFraction spot = ([], spot) := by
      unfold scanFraction
      split
      · rename_i place more point
        rw [if_neg]
        rw [other place more (here.symm.trans point)]
        exact Bool.false_ne_true
      · rfl
    rw [nothing, ← List.nil_append rest, ← here]
    rfl
  · obtain ⟨place, more, rfl⟩ := List.exists_cons_of_ne_nil digits.1
    have next : (spot.skip 1).rest = place :: more ++ rest := by rw [Spot.skip, here]; rfl
    have offset : (spot.skip 1).offset = spot.offset + '.'.utf8Size := by rw [Spot.skip, here]; rfl
    unfold scanFraction
    rw [here]
    simp only [List.cons_append, digits.2 place List.mem_cons_self, if_true]
    rw [Spot.span_of_run next digits.2 stops, offset, byteLength_cons '.', Nat.add_assoc]

/-! ### Exponents -/

theorem scanSign_append (spot : Spot) :
    spot.rest = (scanSign spot).1 ++ (scanSign spot).2.rest := by
  unfold scanSign
  split
  · rename_i here
    rw [Spot.skip, here]
    rfl
  · rename_i here
    rw [Spot.skip, here]
    rfl
  · rfl

theorem scanSign_signAt (spot : Spot) : SignAt (scanSign spot).1 (scanSign spot).2.rest := by
  unfold scanSign
  split
  · exact .inr (.inl rfl)
  · exact .inr (.inr rfl)
  · rename_i no_plus no_minus
    refine .inl ⟨rfl, fun next first is_sign => ?_⟩
    obtain ⟨more, here⟩ := List.head?_eq_some_iff.mp first
    simp only [List.mem_cons, List.not_mem_nil, or_false] at is_sign
    rcases is_sign with rfl | rfl
    · exact no_plus more here
    · exact no_minus more here

theorem scanSign_of_signAt {spot : Spot} {sign rest : List Char} (here : spot.rest = sign ++ rest)
    (signAt : SignAt sign rest) :
    scanSign spot = (sign, ⟨spot.offset + byteLength sign, rest⟩) := by
  unfold scanSign
  rcases signAt with ⟨rfl, other⟩ | rfl | rfl
  · rw [List.nil_append] at here
    subst here
    split
    · rename_i plus
      exact absurd (by decide) (other '+' (by rw [plus]; rfl))
    · rename_i minus
      exact absurd (by decide) (other '-' (by rw [minus]; rfl))
    · rfl
  · rw [here]
    simp only [List.singleton_append, Spot.skip, here]
    rfl
  · rw [here]
    simp only [List.singleton_append, Spot.skip, here]
    rfl

theorem scanSign_of_digits {spot : Spot} {sign digits rest : List Char}
    (is_sign : sign ∈ [[], ['+'], ['-']]) (spells : Digits digits)
    (here : spot.rest = sign ++ (digits ++ rest)) :
    scanSign spot = (sign, ⟨spot.offset + byteLength sign, digits ++ rest⟩) := by
  refine scanSign_of_signAt here ?_
  simp only [List.mem_cons, List.not_mem_nil, or_false] at is_sign
  refine is_sign.imp_left fun nothing => ⟨nothing, fun next first is_sign => ?_⟩
  obtain ⟨digit, more, same, is_digit⟩ := spells.head rest
  rw [same] at first
  cases first
  simp only [List.mem_cons, List.not_mem_nil, or_false] at is_sign
  rcases is_sign with rfl | rfl <;> cases is_digit

theorem scanExponent_reads {spot after : Spot} {kept digits : List Char}
    (scanned : scanExponent spot = (kept, some digits, after)) :
    ∃ exponent, spot.rest = exponent ++ after.rest ∧ kept ++ digits = exponent.map smallMark ∧
      ExponentAt exponent after.rest := by
  unfold scanExponent at scanned
  split at scanned
  · rename_i mark rest here
    split at scanned
    · rename_i marks
      have is_mark : mark ∈ ['e', 'E'] := by simpa using marks
      have next : (spot.skip 1).rest = rest := by rw [Spot.skip, here]; rfl
      have is_sign := scanSign_mem (spot.skip 1)
      have all := (scanSign (spot.skip 1)).2.span_append Char.isDigit
      have belong := (scanSign (spot.skip 1)).2.span_all Char.isDigit
      have stops := (scanSign (spot.skip 1)).2.span_stops Char.isDigit
      simp only [Prod.mk.injEq] at scanned
      obtain ⟨rfl, digits_eq, rfl⟩ := scanned
      split at digits_eq
      · cases digits_eq
      · rename_i some_digit
        cases digits_eq
        have spells : Digits ((scanSign (spot.skip 1)).2.span Char.isDigit).1 :=
          ⟨by simpa using some_digit, belong⟩
        refine ⟨_, ?_, ?_, .inr ⟨mark, _, _, is_mark, is_sign, spells, rfl, stops⟩⟩
        · rw [here, ← next, scanSign_append (spot.skip 1), ← all, List.cons_append,
            List.append_assoc]
        · rw [map_smallMark_exponent is_mark is_sign spells, List.cons_append]
    · rename_i no_mark
      cases scanned
      refine ⟨[], rfl, rfl, .inl ⟨rfl, fun other first => ?_⟩⟩
      rw [here] at first
      cases first
      simpa using no_mark
  · rename_i here
    cases scanned
    exact ⟨[], rfl, rfl, .inl ⟨rfl, by simp [here]⟩⟩

theorem scanExponent_of_exponentAt {spot : Spot} {exponent rest : List Char}
    (here : spot.rest = exponent ++ rest) (exponentAt : ExponentAt exponent rest) :
    ∃ kept digits, kept ++ digits = exponent.map smallMark ∧
      scanExponent spot = (kept, some digits, ⟨spot.offset + byteLength exponent, rest⟩) := by
  rcases exponentAt with ⟨rfl, other⟩ | ⟨mark, sign, digits, is_mark, is_sign, spells, rfl, stops⟩
  · refine ⟨[], [], rfl, ?_⟩
    have nothing : scanExponent spot = ([], some [], spot) := by
      unfold scanExponent
      split
      · rename_i letter more first
        rw [if_neg]
        have no_mark := other letter (by rw [← List.nil_append rest, ← here, first]; rfl)
        simpa using no_mark
      · rfl
    rw [nothing, ← List.nil_append rest, ← here]
    rfl
  · refine ⟨'e' :: sign, digits, ?_, ?_⟩
    · rw [map_smallMark_exponent is_mark is_sign spells, List.cons_append]
    · have marks : (mark == 'e' || mark == 'E') = true := by simpa using is_mark
      have next : (spot.skip 1).rest = sign ++ (digits ++ rest) := by
        rw [Spot.skip, here, List.cons_append, List.append_assoc]
        rfl
      have offset : (spot.skip 1).offset = spot.offset + mark.utf8Size := by
        rw [Spot.skip, here]
        rfl
      have some_digit : digits.isEmpty = false := List.isEmpty_eq_false_iff.mpr spells.1
      unfold scanExponent
      rw [here]
      simp only [List.cons_append, marks, if_true, scanSign_of_digits is_sign spells next]
      rw [Spot.span_of_run rfl spells.2 stops, some_digit, offset, byteLength_cons,
        byteLength_append]
      simp only [Bool.false_eq_true, if_false, Nat.add_assoc]

/-! ### Numbers -/

/-- The parts of a number that is read up to its end do not go on. -/
theorem numberAt_of_scanned {spot ended : Spot} {digit : Char} {more kept places : List Char}
    (here : spot.rest = digit :: more) (isDigit : digit.isDigit = true)
    (found : scanExponent (scanFraction (spot.span Char.isDigit).2).2 =
      (kept, some places, ended)) :
    ∃ whole fraction exponent, NumberAt whole fraction exponent ended.rest ∧
      spot.rest = whole ++ (fraction ++ (exponent ++ ended.rest)) ∧
      (spot.span Char.isDigit).1 ++ (scanFraction (spot.span Char.isDigit).2).1 ++ kept ++ places =
        (whole ++ (fraction ++ exponent)).map smallMark := by
  have digits := digits_span here isDigit
  have whole_append := spot.span_append Char.isDigit
  have whole_stops := spot.span_stops Char.isDigit
  obtain ⟨fraction_append, fractionAt⟩ := scanFraction_reads (spot.span Char.isDigit).2
  obtain ⟨exponent, exponent_append, kept_eq, exponentAt⟩ := scanExponent_reads found
  rw [exponent_append] at fraction_append fractionAt
  have numberAt : NumberAt (spot.span Char.isDigit).1
      (scanFraction (spot.span Char.isDigit).2).1 exponent ended.rest :=
    ⟨digits, fractionAt, exponentAt, fraction_append ▸ whole_stops⟩
  refine ⟨_, _, exponent, numberAt, by rw [← fraction_append, whole_append], ?_⟩
  rw [List.map_append, List.map_append, map_smallMark_digits digits, numberAt.fraction_kept,
    ← kept_eq, List.append_assoc, List.append_assoc]

/-- What is read as a number spells it, and is the longest number there. -/
theorem scanNumber_reads {spot after : Spot} {digit : Char} {more : List Char} {token : Token}
    (here : spot.rest = digit :: more) (isDigit : digit.isDigit = true)
    (scanned : scanNumber spot = (.ok token, after)) :
    ∃ spelling, spot.rest = spelling ++ after.rest ∧ token.SpelledBy spelling ∧
      token.EndsAt spelling after.rest := by
  simp only [scanNumber] at scanned
  split at scanned
  · cases scanned
  · rename_i kept places ended found
    obtain ⟨whole, fraction, exponent, numberAt, same, kept_eq⟩ :=
      numberAt_of_scanned here isDigit found
    split at scanned
    · cases scanned
    · rename_i no_letter
      cases scanned
      refine ⟨whole ++ (fraction ++ exponent), ?_, ⟨numberAt.isNumeral, ?_⟩,
        numberAt.endsAt _ fun next first => ?_⟩
      · rw [same, List.append_assoc, List.append_assoc]
      · rw [String.toList_ofList, kept_eq]
      · rw [Option.mem_def.mp first] at no_letter
        exact fun letter => no_letter (isNameStart_iff.mpr letter)

/-- The digits and the fraction of a number are read before its exponent. -/
theorem scanFraction_of_parts {spot : Spot} {whole fraction rest : List Char}
    (here : spot.rest = whole ++ (fraction ++ rest)) (digits : Digits whole)
    (stops : ∀ next ∈ (fraction ++ rest).head?, next.isDigit = false)
    (fractionAt : FractionAt fraction rest) :
    (spot.span Char.isDigit).1 = whole ∧
      scanFraction (spot.span Char.isDigit).2 =
        (fraction, ⟨spot.offset + byteLength (whole ++ fraction), rest⟩) := by
  have fraction_here :
      (⟨spot.offset + byteLength whole, fraction ++ rest⟩ : Spot).rest = fraction ++ rest := rfl
  rw [Spot.span_of_run here digits.2 stops, scanFraction_of_fractionAt fraction_here fractionAt,
    byteLength_append, Nat.add_assoc]
  exact ⟨rfl, rfl⟩

theorem scanNumber_of_spelledBy {spot : Spot} {lexeme : String} {spelling rest : List Char}
    (here : spot.rest = spelling ++ rest) (spells : (Token.number lexeme).SpelledBy spelling)
    (ends : (Token.number lexeme).EndsAt spelling rest) :
    scanNumber spot = (.ok (.number lexeme), ⟨spot.offset + byteLength spelling, rest⟩) := by
  obtain ⟨numeral, lexeme_eq⟩ := spells
  obtain ⟨whole, fraction, exponent, rfl, numberAt⟩ := NumberAt.of_endsAt numeral ends
  rw [List.append_assoc, List.append_assoc] at here
  obtain ⟨whole_read, fraction_read⟩ :=
    scanFraction_of_parts here numberAt.digits numberAt.stops numberAt.fractionAt
  have exponent_here : (⟨spot.offset + byteLength (whole ++ fraction), exponent ++ rest⟩ :
      Spot).rest = exponent ++ rest := rfl
  obtain ⟨kept, places, kept_eq, exponent_read⟩ :=
    scanExponent_of_exponentAt exponent_here numberAt.exponentAt
  have no_letter : (rest.head?.any isNameStart) = false := by
    cases first : rest.head? with
    | none => rfl
    | some next => exact isNameStart_eq_false_iff.mpr (ends.1 next first)
  have lexeme_of : lexeme = String.ofList (whole ++ fraction ++ kept ++ places) := by
    rw [← String.ofList_toList (s := lexeme), lexeme_eq, List.map_append, List.map_append,
      map_smallMark_digits numberAt.digits, numberAt.fraction_kept, ← kept_eq, List.append_assoc,
      List.append_assoc]
  simp only [scanNumber, whole_read, fraction_read, exponent_read, no_letter, Bool.false_eq_true,
    if_false]
  rw [lexeme_of, ← List.append_assoc, byteLength_append (whole ++ fraction), Nat.add_assoc]

end Scanner

end Formula
