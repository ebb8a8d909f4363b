/-
**Decimals that are read back.**

What a quotient is rounded to depends on its value only (`nearestRank_of_cross`), and a magnitude
that is given exactly is rounded to itself (`nearestRank_units`). So the decimal that is written for
a magnitude is read as that magnitude.

* `Binary64.nearest_shift`: zeros at the end of a coefficient can be moved to the exponent.
* `Binary64.nearest_shortest`: the shortest decimal of a rank is read as that rank.
-/

import Mathlib.Algebra.Group.Nat.Defs
import Mathlib.Tactic.DefEqTransformations
import Formula.Number.Shortest

namespace Formula

namespace Binary64

/-! ### Rounding -/

theorem roundHalfEven_mul (numerator denominator : Nat) {factor : Nat} (positive : 0 < factor) :
    roundHalfEven (numerator * factor) (denominator * factor) =
      roundHalfEven numerator denominator := by
  unfold roundHalfEven
  rw [Nat.mul_div_mul_right _ _ positive, Nat.mul_mod_mul_right, ← Nat.mul_assoc]
  simp only [Nat.mul_lt_mul_right positive]

theorem roundHalfEven_exact (quotient : Nat) {denominator : Nat} (positive : 0 < denominator) :
    roundHalfEven (quotient * denominator) denominator = quotient := by
  unfold roundHalfEven
  rw [Nat.mul_mod_left, Nat.mul_zero]
  simp only [if_pos positive]
  exact Nat.mul_div_cancel _ positive

/-- A quotient of units rounded to the nearest magnitude: `nearestRank` with its units counted. -/
def roundedRank (units denominator : Nat) : Nat :=
  let doublings := (units / denominator).log2 - 52
  doublings * Nat.pow 2 52 + roundHalfEven units (denominator * Nat.pow 2 doublings)

theorem nearestRank_eq (numerator denominator : Nat) :
    nearestRank numerator denominator = roundedRank (numerator * Nat.pow 2 1074) denominator :=
  rfl

theorem roundedRank_mul (units denominator : Nat) {factor : Nat} (positive : 0 < factor) :
    roundedRank (units * factor) (denominator * factor) = roundedRank units denominator := by
  unfold roundedRank
  rw [Nat.mul_div_mul_right _ _ positive]
  dsimp only
  rw [Nat.mul_right_comm denominator factor, roundHalfEven_mul _ _ positive]

theorem nearestRank_mul (numerator denominator : Nat) {factor : Nat} (positive : 0 < factor) :
    nearestRank (numerator * factor) (denominator * factor) =
      nearestRank numerator denominator := by
  rw [nearestRank_eq, nearestRank_eq, Nat.mul_right_comm, roundedRank_mul _ _ positive]

/-- Rounding depends on the value of a quotient only. -/
theorem nearestRank_of_cross {numerator denominator numerator' denominator' : Nat}
    (positive : 0 < denominator) (positive' : 0 < denominator')
    (same : numerator * denominator' = numerator' * denominator) :
    nearestRank numerator denominator = nearestRank numerator' denominator' :=
  calc
    nearestRank numerator denominator
    _ = nearestRank (numerator * denominator') (denominator * denominator') :=
      (nearestRank_mul numerator denominator positive').symm
    _ = nearestRank (numerator' * denominator) (denominator' * denominator) := by
      rw [same, Nat.mul_comm denominator]
    _ = nearestRank numerator' denominator' := nearestRank_mul numerator' denominator' positive

/-! ### Magnitudes -/

theorem two_pow_pos (exponent : Nat) : 0 < Nat.pow 2 exponent :=
  Nat.pow_pos (by decide)

theorem scale_le (rank : Nat) : scale rank * Nat.pow 2 52 ≤ rank := by
  unfold scale
  have floor := Nat.div_mul_le_self rank (Nat.pow 2 52)
  have fewer := Nat.mul_le_mul_right (Nat.pow 2 52) (Nat.sub_le (rank / Nat.pow 2 52) 1)
  exact Nat.le_trans fewer floor

theorem scale_add_significand (rank : Nat) :
    scale rank * Nat.pow 2 52 + significand rank = rank :=
  Nat.add_sub_of_le (scale_le rank)

/-- A significand has fifty-three bits at most, and exactly that many where the spacing has
doubled. -/
theorem significand_bounds (rank : Nat) :
    significand rank < 2 ^ 53 ∧ (scale rank ≠ 0 → 2 ^ 52 ≤ significand rank) := by
  have whole := scale_add_significand rank
  have floor := Nat.div_add_mod rank (Nat.pow 2 52)
  have less := Nat.mod_lt rank (two_pow_pos 52)
  unfold scale at whole ⊢
  simp only [Nat.pow_eq] at *
  omega

/-- The doublings of a magnitude are told by its size. -/
theorem log2_units (rank : Nat) : (units rank).log2 - 52 = scale rank := by
  obtain ⟨below, above⟩ := significand_bounds rank
  unfold units
  cases spaced : scale rank with
  | zero =>
    rw [Nat.pow_eq, Nat.pow_zero, Nat.mul_one, Nat.sub_eq_zero_iff_le]
    by_cases nothing : significand rank = 0
    · rw [nothing, Nat.log2_zero]
      exact Nat.zero_le _
    · exact Nat.le_of_lt_succ ((Nat.log2_lt nothing).mpr below)
  | succ doublings =>
    have least := above (by rw [spaced]; exact Nat.succ_ne_zero _)
    have some_units : significand rank * 2 ^ (doublings + 1) ≠ 0 :=
      Nat.mul_ne_zero (by omega) (Nat.ne_of_gt (Nat.two_pow_pos _))
    have size : (significand rank * 2 ^ (doublings + 1)).log2 = 52 + (doublings + 1) := by
      refine (Nat.log2_eq_iff some_units).mpr ⟨?_, ?_⟩
      · rw [Nat.pow_add]
        exact Nat.mul_le_mul_right _ least
      · have larger := Nat.mul_lt_mul_of_pos_right below (Nat.two_pow_pos (doublings + 1))
        rw [← Nat.pow_add] at larger
        rw [Nat.add_right_comm]
        exact larger
    rw [Nat.pow_eq, size, Nat.add_sub_cancel_left]

theorem roundedRank_units (rank : Nat) {unit : Nat} (positive : 0 < unit) :
    roundedRank (units rank * unit) unit = rank := by
  have spacing_pos : 0 < unit * Nat.pow 2 (scale rank) := Nat.mul_pos positive (two_pow_pos _)
  have spaced : units rank * unit = significand rank * (unit * Nat.pow 2 (scale rank)) := by
    rw [units, Nat.mul_assoc, Nat.mul_comm (Nat.pow 2 _)]
  unfold roundedRank
  rw [Nat.mul_div_cancel _ positive, log2_units, spaced]
  dsimp only
  rw [roundHalfEven_exact _ spacing_pos, scale_add_significand]

/-- A magnitude that is given exactly is rounded to itself. -/
theorem nearestRank_units (rank : Nat) : nearestRank (units rank) (Nat.pow 2 1074) = rank := by
  rw [nearestRank_eq]
  exact roundedRank_units rank (two_pow_pos 1074)

/-! ### Decimals -/

/-- The rank that a decimal is read as. -/
def nearest (decimal : Decimal) : Nat :=
  nearestRank decimal.numerator decimal.denominator

theorem denominator_pos (decimal : Decimal) : 0 < decimal.denominator :=
  Nat.pow_pos (by decide)

/-- Zeros at the end of a coefficient can be moved to the exponent. -/
theorem nearest_shift (coefficient zeros : Nat) (exponent : Int) :
    nearest ⟨coefficient * 10 ^ zeros, exponent⟩ = nearest ⟨coefficient, exponent + zeros⟩ := by
  refine nearestRank_of_cross (denominator_pos _) (denominator_pos _) ?_
  have balanced : zeros + exponent.toNat + (-(exponent + zeros)).toNat =
      (exponent + zeros).toNat + (-exponent).toNat := by omega
  simp only [Decimal.numerator, Decimal.denominator, Nat.pow_eq, Nat.mul_assoc, ← Nat.pow_add]
  rw [balanced]

theorem nearestRank_decimal (numerator exponent : Nat) :
    nearestRank (numerator * Nat.pow 5 exponent) (Nat.pow 10 exponent) =
      nearestRank numerator (Nat.pow 2 exponent) := by
  have tens : Nat.pow 10 exponent = Nat.pow 2 exponent * Nat.pow 5 exponent := Nat.mul_pow 2 5 _
  rw [tens]
  exact nearestRank_mul _ _ (Nat.pow_pos (by decide))

theorem nearest_exact (rank : Nat) : nearest (exact rank) = rank := by
  have above : (-1074 : Int).toNat = 0 := rfl
  have below : (-(-1074) : Int).toNat = 1074 := rfl
  unfold nearest exact Decimal.numerator Decimal.denominator
  dsimp only
  have one : Nat.pow 10 0 = 1 := rfl
  rw [above, below, one, Nat.mul_one]
  exact (nearestRank_decimal (units rank) 1074).trans (nearestRank_units rank)

/-! ### The shortest decimal -/

theorem reads_iff {decimal : Decimal} {rank : Nat} :
    reads decimal rank = true ↔ nearest decimal = rank :=
  beq_iff_eq

/-- Of two candidates the one that is taken passes the test. -/
theorem taken_cases {test : Decimal → Bool} {preferred other decimal : Decimal}
    (taken : (if test preferred = true then some preferred
      else if test other = true then some other
      else none) = some decimal) :
    test decimal = true ∧ (decimal = preferred ∨ decimal = other) := by
  by_cases first : test preferred = true
  · rw [if_pos first] at taken
    cases taken
    exact ⟨first, .inl rfl⟩
  · rw [if_neg first] at taken
    by_cases second : test other = true
    · rw [if_pos second] at taken
      cases taken
      exact ⟨second, .inr rfl⟩
    · rw [if_neg second] at taken
      cases taken

/-- What is found on a grid reads back, and is one of the two neighbours on the grid. -/
theorem onGrid?_spec {tie : Tie} {rank : Nat} {exponent : Int} {decimal : Decimal}
    (found : onGrid? tie rank exponent = some decimal) :
    nearest decimal = rank ∧ decimal.exponent = exponent ∧
      decimal.coefficient ≤ units rank * Nat.pow 10 (-exponent).toNat + 1 := by
  -- The function is unfolded without its arguments: given them, the kernel would evaluate which
  -- candidate is the preferred one, digit by digit.
  have unfolded : onGrid? = onGrid? := rfl
  conv at unfolded => rhs; delta onGrid?
  rw [unfolded] at found
  beta_reduce at found
  extract_lets numerator denominator lower upper twice lowerFirst at found
  have neighbours : decimal = lower ∨ decimal = upper → decimal.exponent = exponent ∧
      decimal.coefficient ≤ numerator + 1 := by
    have floor : numerator / denominator ≤ numerator := Nat.div_le_self _ _
    rintro (rfl | rfl)
    · exact ⟨rfl, Nat.le_succ_of_le floor⟩
    · exact ⟨rfl, Nat.succ_le_succ floor⟩
  rw [← reads_iff]
  by_cases first : lowerFirst = true
  · rw [if_pos first] at found
    obtain ⟨passes, neighbour⟩ :=
      @taken_cases (fun decimal => reads decimal rank) lower upper decimal found
    exact ⟨passes, neighbours neighbour⟩
  · rw [if_neg first] at found
    obtain ⟨passes, neighbour⟩ :=
      @taken_cases (fun decimal => reads decimal rank) upper lower decimal found
    exact ⟨passes, neighbours neighbour.symm⟩

theorem nearest_zero (exponent : Int) : nearest ⟨0, exponent⟩ = 0 := by
  have nothing : (⟨0, exponent⟩ : Decimal).numerator = 0 := Nat.zero_mul _
  rw [nearest, nothing, nearestRank_eq]
  generalize Nat.pow 2 1074 = unit
  unfold roundedRank roundHalfEven
  simp

/-- The decimal that is written for a positive magnitude is found on a grid, or is exact. -/
theorem shortest_cases (tie : Tie) {rank : Nat} (positive : rank ≠ 0) :
    (∃ further < 17, onGrid? tie rank (leadingExponent rank - (further : Nat)) =
      some (shortest tie rank)) ∨ shortest tie rank = exact rank := by
  unfold shortest
  rw [if_neg positive]
  dsimp only
  cases hit : (List.range 17).findSome? fun (further : Nat) =>
    onGrid? tie rank (leadingExponent rank - further) with
  | none => exact .inr rfl
  | some decimal =>
    obtain ⟨further, inside, found⟩ := List.exists_of_findSome?_eq_some hit
    exact .inl ⟨further, List.mem_range.mp inside, found⟩

theorem shortest_zero (tie : Tie) : shortest tie 0 = ⟨0, 0⟩ :=
  if_pos rfl

/-- The decimal that is written for a magnitude is read as that magnitude. -/
theorem nearest_shortest (tie : Tie) (rank : Nat) : nearest (shortest tie rank) = rank := by
  by_cases zero : rank = 0
  · rw [zero, shortest_zero]
    exact nearest_zero 0
  · rcases shortest_cases tie zero with ⟨further, -, found⟩ | same
    · exact (onGrid?_spec found).1
    · rw [same]
      exact nearest_exact rank

/-! ### Sizes -/

/-- How many digits a magnitude has in units, shifted by some places. -/
theorem length_digitsOf_units {rank number zeros size : Nat} (isFinite : rank < infinityRank)
    (small : number ≤ units rank * Nat.pow 10 zeros + 1) (enough : 2100 + zeros < size) :
    (digitsOf number).length ≤ size := by
  have spacing : scale rank ≤ 2047 :=
    Nat.le_of_lt (Nat.lt_of_le_of_lt (Nat.sub_le _ _)
      ((Nat.div_lt_iff_lt_mul (two_pow_pos 52)).mpr isFinite))
  have magnitude : units rank < 10 ^ (53 + scale rank) :=
    calc
      units rank
      _ < 2 ^ 53 * 2 ^ scale rank :=
        Nat.mul_lt_mul_of_pos_right (significand_bounds rank).1 (Nat.two_pow_pos _)
      _ = 2 ^ (53 + scale rank) := (Nat.pow_add 2 53 _).symm
      _ ≤ 10 ^ (53 + scale rank) := Nat.pow_le_pow_left (by decide) _
  have fewer : number < 10 ^ size :=
    calc
      number
      _ ≤ units rank * 10 ^ zeros + 1 := small
      _ ≤ 10 ^ (53 + scale rank) * 10 ^ zeros :=
        Nat.mul_lt_mul_of_pos_right magnitude (Nat.pow_pos (by decide))
      _ = 10 ^ (53 + scale rank + zeros) := (Nat.pow_add 10 _ zeros).symm
      _ < 10 ^ size := Nat.pow_lt_pow_right (by decide) (by omega)
  exact (Nat.length_toDigits_le_iff (by decide) (by omega)).mpr fewer

theorem leadingExponent_bounds {rank : Nat} (isFinite : rank < infinityRank) :
    -401 ≤ leadingExponent rank ∧ leadingExponent rank ≤ 2100 := by
  have floor : units rank * Nat.pow 10 400 / Nat.pow 2 1074 ≤ units rank * Nat.pow 10 400 + 1 :=
    Nat.le_succ_of_le (Nat.div_le_self _ _)
  have length := @length_digitsOf_units rank _ 400 2501 isFinite floor (by decide)
  unfold leadingExponent
  generalize (digitsOf _).length = length at *
  omega

/-- The decimals that are written have digits and an exponent of moderate size. -/
theorem shortest_bounds (tie : Tie) {rank : Nat} (isFinite : rank < infinityRank) :
    -1074 ≤ (shortest tie rank).exponent ∧ (shortest tie rank).exponent ≤ 2100 ∧
      (digitsOf (shortest tie rank).coefficient).length ≤ 3175 := by
  by_cases zero : rank = 0
  · rw [zero, shortest_zero]
    decide
  · rcases shortest_cases tie zero with ⟨further, less, found⟩ | same
    · obtain ⟨-, exponent, coefficient⟩ := onGrid?_spec found
      have leading := leadingExponent_bounds isFinite
      exact ⟨by omega, by omega, length_digitsOf_units isFinite coefficient (by omega)⟩
    · have fewer : units rank * Nat.pow 5 1074 ≤ units rank * Nat.pow 10 1074 + 1 :=
        Nat.le_succ_of_le (Nat.mul_le_mul_left _ (Nat.pow_le_pow_left (by decide) 1074))
      rw [same]
      exact ⟨Int.le_refl _, show (-1074 : Int) ≤ 2100 by decide,
        @length_digitsOf_units rank _ 1074 3175 isFinite fewer (by decide)⟩

end Binary64

end Formula
