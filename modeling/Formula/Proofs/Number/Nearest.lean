/-
**Rounding to the nearest.**

The rank that a quotient is rounded to is that of the nearest magnitude, and of two equally near
ones it is the even rank. Distances are compared as natural numbers: `units rank / 2 ^ 1074` lies as
far from `numerator / denominator` as `units rank * denominator` from `numerator * 2 ^ 1074`, but
for one factor for all ranks. Ranks beyond the finite ones stand for the magnitudes that numbers of
more exponents would have, so a number is infinite exactly where the nearest of these is none of the
format.

* `roundHalfEven_nearest`: the same for the natural numbers.
* `nearestRank_nearest`: no magnitude is nearer than the one of the rank.
-/

import Mathlib.Data.Nat.Dist
import Formula.Proofs.Number.ReadBack

namespace Formula.Binary64

/-! ### Natural numbers -/

/-- A quotient is rounded down before the half and up after it, and at the half to the even
neighbour. -/
theorem roundHalfEven_cases (numerator denominator : Nat) :
    let floor := numerator / denominator
    let twice := 2 * (numerator % denominator)
    (roundHalfEven numerator denominator = floor ∧
      (twice < denominator ∨ twice = denominator ∧ floor % 2 = 0)) ∨
    (roundHalfEven numerator denominator = floor + 1 ∧
      (denominator < twice ∨ twice = denominator ∧ floor % 2 = 1)) := by
  unfold roundHalfEven
  dsimp only
  generalize numerator / denominator = floor
  generalize 2 * (numerator % denominator) = twice
  rcases Nat.lt_trichotomy twice denominator with below | half | above
  · rw [if_pos below]
    exact .inl ⟨rfl, .inl below⟩
  · rw [if_neg (by omega), if_neg (by omega)]
    rcases Nat.mod_two_eq_zero_or_one floor with even | odd
    · exact .inl ⟨by omega, .inr ⟨half, even⟩⟩
    · exact .inr ⟨by omega, .inr ⟨half, odd⟩⟩
  · rw [if_neg (by omega), if_pos above]
    exact .inr ⟨rfl, .inl above⟩

/-- A quotient is rounded to the nearest natural number, of two equally near ones to the even
one. -/
theorem roundHalfEven_nearest (numerator : Nat) {denominator : Nat} (positive : 0 < denominator)
    {other : Nat} (differs : other ≠ roundHalfEven numerator denominator) :
    Nat.dist (roundHalfEven numerator denominator * denominator) numerator <
        Nat.dist (other * denominator) numerator ∨
      Nat.dist (roundHalfEven numerator denominator * denominator) numerator =
          Nat.dist (other * denominator) numerator ∧
        roundHalfEven numerator denominator % 2 = 0 := by
  have division := Nat.div_add_mod' numerator denominator
  have remainder := Nat.mod_lt numerator positive
  have rounded := roundHalfEven_cases numerator denominator
  dsimp only at rounded
  generalize roundHalfEven numerator denominator = rank at *
  generalize numerator / denominator = floor at *
  generalize numerator % denominator = rest at *
  have next : (floor + 1) * denominator = floor * denominator + denominator := Nat.succ_mul _ _
  -- What lies beyond the two neighbours is farther away by a whole denominator.
  have below : other < floor → other * denominator + denominator ≤ floor * denominator := by
    intro less
    rw [← Nat.succ_mul]
    exact Nat.mul_le_mul_right _ less
  have above : floor + 1 < other →
      floor * denominator + denominator + denominator ≤ other * denominator := by
    intro more
    rw [← Nat.succ_mul, ← Nat.succ_mul]
    exact Nat.mul_le_mul_right _ more
  have placed : other < floor ∨ other = floor ∨ other = floor + 1 ∨ floor + 1 < other := by omega
  unfold Nat.dist
  rcases rounded with ⟨rfl, near⟩ | ⟨rfl, near⟩ <;> rcases placed with less | rfl | rfl | more
  · have := below less
    omega
  · contradiction
  · rw [next]
    omega
  · have := above more
    omega
  · have := below less
    rw [next]
    omega
  · rw [next]
    omega
  · contradiction
  · have := above more
    rw [next]
    omega

/-! ### Magnitudes -/

theorem units_inj {first second : Nat} (same : units first = units second) : first = second := by
  rw [← nearestRank_units first, same, nearestRank_units]

/-- A magnitude that is not spaced more widely than `2 ^ doublings` lies below the first one that
is. -/
theorem units_lt {rank doublings : Nat} (narrow : scale rank < doublings) :
    units rank < 2 ^ 52 * Nat.pow 2 doublings := by
  have significant := (significand_bounds rank).1
  calc
    units rank
    _ < 2 ^ 53 * Nat.pow 2 (scale rank) :=
      Nat.mul_lt_mul_of_pos_right significant (two_pow_pos _)
    _ = 2 ^ 52 * Nat.pow 2 (scale rank + 1) := by
      rw [Nat.pow_eq, Nat.pow_eq, Nat.pow_succ]
      omega
    _ ≤ 2 ^ 52 * Nat.pow 2 doublings :=
      Nat.mul_le_mul_left _ (Nat.pow_le_pow_right (by decide) narrow)

/-- A magnitude is a multiple of every narrower spacing. -/
theorem units_of_spacing {rank doublings : Nat} (wide : doublings ≤ scale rank) :
    units rank = significand rank * Nat.pow 2 (scale rank - doublings) * Nat.pow 2 doublings := by
  rw [Nat.mul_assoc]
  exact congrArg (significand rank * ·) (Nat.pow_sub_mul_pow 2 wide).symm

/-- The rank after so many doublings, of a magnitude in units of its spacing. -/
theorem units_of_doublings {doublings size : Nat} (most : size ≤ 2 ^ 53)
    (least : doublings ≠ 0 → 2 ^ 52 ≤ size) :
    units (doublings * Nat.pow 2 52 + size) = size * Nat.pow 2 doublings := by
  have width : Nat.pow 2 52 = 2 ^ 52 := rfl
  rcases Nat.lt_or_ge size (2 ^ 53) with less | full
  · have spacing : scale (doublings * Nat.pow 2 52 + size) = doublings := by
      unfold scale
      rw [width]
      omega
    rw [units, significand, spacing, Nat.add_sub_cancel_left]
  · have same : size = 2 ^ 53 := Nat.le_antisymm most full
    have spacing : scale (doublings * Nat.pow 2 52 + size) = doublings + 1 := by
      unfold scale
      rw [width]
      omega
    have halved : doublings * 2 ^ 52 + 2 ^ 53 - (doublings + 1) * 2 ^ 52 = 2 ^ 52 := by omega
    rw [units, significand, spacing, same, width, halved, Nat.pow_eq, Nat.pow_eq, Nat.pow_add]
    omega

/-- Holds of the rank of the magnitude that a quotient is rounded to: every other magnitude lies
farther away from it, or just as far where the rank is even. -/
def IsNearest (numerator denominator rank : Nat) : Prop :=
  ∀ other ≠ rank,
    Nat.dist (units rank * denominator) (numerator * Nat.pow 2 1074) <
        Nat.dist (units other * denominator) (numerator * Nat.pow 2 1074) ∨
      Nat.dist (units rank * denominator) (numerator * Nat.pow 2 1074) =
          Nat.dist (units other * denominator) (numerator * Nat.pow 2 1074) ∧
        rank % 2 = 0

/-- A rounded quotient of more than fifty-three bits keeps fifty-three of them, perhaps rounded up
to the next power of two. -/
theorem rounded_bounds {units denominator : Nat} (positive : 0 < denominator) :
    let doublings := (units / denominator).log2 - 52
    let size := roundHalfEven units (denominator * Nat.pow 2 doublings)
    size ≤ 2 ^ 53 ∧
      (doublings ≠ 0 → 2 ^ 52 ≤ size ∧ 2 ^ 52 * (denominator * Nat.pow 2 doublings) ≤ units) := by
  intro doublings size
  have spacing_pos : 0 < denominator * Nat.pow 2 doublings :=
    Nat.mul_pos positive (two_pow_pos doublings)
  have rounded := roundHalfEven_cases units (denominator * Nat.pow 2 doublings)
  dsimp only at rounded
  have small : units / (denominator * Nat.pow 2 doublings) < 2 ^ 53 := by
    rw [← Nat.div_div_eq_div_mul]
    refine (Nat.div_lt_iff_lt_mul (two_pow_pos doublings)).mpr ?_
    rw [Nat.pow_eq, ← Nat.pow_add]
    exact Nat.lt_of_lt_of_le Nat.lt_log2_self (Nat.pow_le_pow_right (by decide) (by omega))
  refine ⟨by omega, fun spaced => ?_⟩
  have large : 2 ^ 52 ≤ units / (denominator * Nat.pow 2 doublings) := by
    rw [← Nat.div_div_eq_div_mul]
    refine (Nat.le_div_iff_mul_le (two_pow_pos doublings)).mpr ?_
    rw [Nat.pow_eq, ← Nat.pow_add]
    have some_units : units / denominator ≠ 0 := by
      intro nothing
      have none_doubled : doublings = (units / denominator).log2 - 52 := rfl
      rw [nothing, Nat.log2_zero] at none_doubled
      exact spaced none_doubled
    exact (Nat.le_log2 some_units).mp (by omega)
  exact ⟨by omega, (Nat.le_div_iff_mul_le spacing_pos).mp large⟩

/-- No magnitude is nearer to a quotient than the one that the quotient is rounded to. -/
theorem nearestRank_nearest (numerator : Nat) {denominator : Nat} (positive : 0 < denominator) :
    IsNearest numerator denominator (nearestRank numerator denominator) := by
  intro other differs
  obtain ⟨most, least⟩ := @rounded_bounds (numerator * Nat.pow 2 1074) denominator positive
  rw [nearestRank] at differs ⊢
  generalize numerator * Nat.pow 2 1074 = target at *
  generalize (target / denominator).log2 - 52 = doublings at *
  have spacing_pos : 0 < denominator * Nat.pow 2 doublings :=
    Nat.mul_pos positive (two_pow_pos doublings)
  have nearest (multiple : Nat) := @roundHalfEven_nearest target _ spacing_pos multiple
  generalize roundHalfEven target (denominator * Nat.pow 2 doublings) = size at *
  have magnitude := units_of_doublings most fun spaced => (least spaced).1
  have regroup (multiple : Nat) : multiple * Nat.pow 2 doublings * denominator =
      multiple * (denominator * Nat.pow 2 doublings) := by
    rw [Nat.mul_assoc, Nat.mul_comm denominator]
  have parity : (doublings * Nat.pow 2 52 + size) % 2 = size % 2 := by
    have width : Nat.pow 2 52 = 2 ^ 52 := rfl
    rw [width]
    omega
  rw [magnitude, regroup, parity]
  rcases Nat.lt_or_ge (scale other) doublings with narrow | wide
  · -- The other magnitude lies below `2 ^ 52` spacings, and the quotient does not.
    obtain ⟨above, reached⟩ := least (Nat.ne_of_gt (Nat.zero_lt_of_lt narrow))
    have lower := Nat.mul_lt_mul_of_pos_right (units_lt narrow) positive
    rw [regroup] at lower
    refine .inl ?_
    have edge : Nat.dist (size * (denominator * Nat.pow 2 doublings)) target ≤
        Nat.dist (2 ^ 52 * (denominator * Nat.pow 2 doublings)) target := by
      by_cases same : 2 ^ 52 = size
      · rw [same]
      · exact (nearest (2 ^ 52) same).elim Nat.le_of_lt fun tie => Nat.le_of_eq tie.1
    unfold Nat.dist at *
    omega
  · -- The other magnitude is a multiple of the spacing.
    have multiple := units_of_spacing wide
    have apart : significand other * Nat.pow 2 (scale other - doublings) ≠ size := by
      intro same
      rw [same] at multiple
      exact differs (units_inj (multiple.trans magnitude.symm))
    rw [multiple, regroup]
    exact nearest _ apart

end Formula.Binary64
