import Mathlib.Algebra.Order.Round
import Mathlib.Algebra.Order.Field.Basic
import Mathlib.Tactic.Linarith
import Mathlib.Tactic.Ring
import Mathlib.Tactic.Push

/-!
# Rounding to the nearest integer, halves away from zero

`roundAway` is the rounding of SQL fixed-point columns. On non-negative numbers
it is Mathlib's `round`. A total split into two exact parts need not stay the sum
of its parts once all three are rounded; `roundAway_split_iff` says exactly when
it does, in terms of the rounding errors of the total and of one part.

## Main definitions

- `roundAway` — nearest integer, ties away from zero
- `roundError` — what rounding removed

## Main results

- `roundAway_split_iff` — when the rounded parts add up to the rounded total
-/

variable {K : Type*} [Field K] [LinearOrder K] [IsStrictOrderedRing K] [FloorRing K]

/-- The nearest integer, with ties rounded away from zero. -/
def roundAway (x : K) : ℤ := if 0 ≤ x then round x else -round (-x)

/-- The part of `x` that rounding removes. -/
def roundError (x : K) : K := x - roundAway x

omit [IsStrictOrderedRing K] in
theorem roundAway_of_nonneg {x : K} (hx : 0 ≤ x) : roundAway x = round x := if_pos hx

@[simp] theorem roundAway_intCast (n : ℤ) : roundAway (n : K) = n := by
  rw [roundAway]
  split
  · exact round_intCast n
  · rw [← Int.cast_neg, round_intCast, neg_neg]

theorem roundAway_nonneg {x : K} (hx : 0 ≤ x) : 0 ≤ roundAway x := by
  rw [roundAway_of_nonneg hx, round_eq]
  exact Int.floor_nonneg.mpr (by linarith)

/-- Rounding is monotone on non-negative numbers. -/
theorem roundAway_mono {x y : K} (hx : 0 ≤ x) (hxy : x ≤ y) : roundAway x ≤ roundAway y := by
  rw [roundAway_of_nonneg hx, roundAway_of_nonneg (hx.trans hxy), round_eq, round_eq]
  exact Int.floor_mono (by linarith)

/-- Rounding is symmetric about zero. -/
theorem abs_roundAway (x : K) : |roundAway x| = roundAway |x| := by
  rcases le_or_gt 0 x with hx | hx
  · rw [abs_of_nonneg hx, abs_of_nonneg (roundAway_nonneg hx)]
  · have hneg : roundAway x = -roundAway (-x) := by
      rw [roundAway, if_neg (not_le.mpr hx), roundAway_of_nonneg (by linarith)]
    rw [abs_of_neg hx, hneg, abs_neg, abs_of_nonneg (roundAway_nonneg (by linarith))]

@[simp] theorem roundError_intCast (n : ℤ) : roundError (n : K) = 0 := by
  simp [roundError]

/-- The rounding error of a non-negative number lies in `[-1/2, 1/2)`. -/
theorem roundError_mem {x : K} (hx : 0 ≤ x) : -(1 / 2) ≤ roundError x ∧ roundError x < 1 / 2 := by
  have hlow := sub_half_lt_round x
  have hhigh := round_le_add_half x
  rw [roundError, roundAway_of_nonneg hx]
  constructor <;> linarith

/-- **Rounded splits**: for `part ≤ total`, the rounded part and the rounded rest
add up to the rounded total exactly when the two rounding errors differ by less
than a half, a difference of exactly minus a half included. -/
theorem roundAway_split_iff {total part : K} (hpt : part ≤ total) :
    roundAway total = roundAway part + roundAway (total - part) ↔
      -(1 / 2) ≤ roundError total - roundError part ∧
        roundError total - roundError part < 1 / 2 := by
  have hrest : total - part =
      ((roundAway total - roundAway part : ℤ) : K) + (roundError total - roundError part) := by
    rw [roundError, roundError, Int.cast_sub]
    ring
  have hround : roundAway (total - part) =
      roundAway total - roundAway part + round (roundError total - roundError part) := by
    rw [roundAway_of_nonneg (sub_nonneg.mpr hpt)]
    conv_lhs => rw [hrest, round_intCast_add]
  have hzero : roundAway total = roundAway part + roundAway (total - part) ↔
      round (roundError total - roundError part) = 0 := by
    rw [hround]
    constructor <;> intro h <;> linarith
  rw [hzero, round_eq_zero_iff, Set.mem_Ico]
