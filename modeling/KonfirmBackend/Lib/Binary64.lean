import Mathlib.Algebra.Order.Field.Power
import Mathlib.Data.Int.Log
import Mathlib.Data.Rat.Floor
import Mathlib.Tactic.Linarith
import Mathlib.Tactic.NormNum
import Mathlib.Tactic.Positivity
import Mathlib.Tactic.Ring

/-!
# Rounding to binary64

The finite values of the IEEE 754 format binary64 as rationals, and rounding to the nearest
of them, ties to even. Zero has no sign here.

## Main definitions

- `Binary64.Representable` — the finite values of the format
- `Binary64.Normal` — the numbers that rounding moves by a small part of them only
- `Binary64.fl` — the nearest value, were there no largest one

## Main results

- `Binary64.representable_fl` — rounding gives a value of the format unless it overflows
- `Binary64.abs_fl_sub_le`, `abs_fl_sub_le_of_lt` — the relative and the absolute error of
  rounding
-/

namespace Binary64

/-- `m * 2^e` with a significand of 53 bits. -/
def Representable (q : ℚ) : Prop :=
  ∃ m e : ℤ, |m| < 2 ^ 53 ∧ -1074 ≤ e ∧ e ≤ 971 ∧ q = m * 2 ^ e

/-- Zero, or not among the numbers that are too small for 53 bits. -/
def Normal (q : ℚ) : Prop := q = 0 ∨ 2 ^ (-1022 : ℤ) ≤ |q|

/-- The nearest integer, ties to even. -/
def roundEven (x : ℚ) : ℤ :=
  if Int.fract x < 1 / 2 then ⌊x⌋
  else if 1 / 2 < Int.fract x then ⌊x⌋ + 1
  else ⌊x⌋ + ⌊x⌋ % 2

/-- The exponent of the last place of `q`. -/
def lastPlace (q : ℚ) : ℤ := max (Int.log 2 |q| - 52) (-1074)

def fl (q : ℚ) : ℚ := roundEven (q / 2 ^ lastPlace q) * 2 ^ lastPlace q

example : fl (fl (1 / 10) + fl (2 / 10)) ≠ fl (3 / 10) := by decide +kernel

/-! ## The nearest integer -/

theorem abs_roundEven_sub_le (x : ℚ) : |(roundEven x : ℚ) - x| ≤ 1 / 2 := by
  have hsplit : (⌊x⌋ : ℚ) + Int.fract x = x := Int.floor_add_fract x
  have hlow := Int.fract_nonneg x
  have hhigh := Int.fract_lt_one x
  rw [abs_le]
  unfold roundEven
  split_ifs with hbelow habove
  · constructor <;> linarith
  · push_cast
    constructor <;> linarith
  · -- a tie, whichever of the two neighbours is even
    have htie : Int.fract x = 1 / 2 := le_antisymm (not_lt.mp habove) (not_lt.mp hbelow)
    rcases Int.emod_two_eq_zero_or_one ⌊x⌋ with heven | hodd
    · rw [heven]
      push_cast
      constructor <;> linarith
    · rw [hodd]
      push_cast
      constructor <;> linarith

/-- Rounding does not leave the integers between which a number lies. -/
theorem abs_roundEven_le {x : ℚ} {n : ℤ} (h : |x| < n) : |roundEven x| ≤ n := by
  have herror := abs_roundEven_sub_le x
  have hsum := abs_add_le ((roundEven x : ℚ) - x) x
  rw [sub_add_cancel] at hsum
  have hlt : |(roundEven x : ℚ)| < n + 1 := by linarith
  have hlt' : |roundEven x| < n + 1 := by exact_mod_cast hlt
  omega

theorem le_abs_roundEven {x : ℚ} {n : ℤ} (h : (n : ℚ) ≤ |x|) : n ≤ |roundEven x| := by
  have herror := abs_roundEven_sub_le x
  have hsum := abs_add_le (x - (roundEven x : ℚ)) (roundEven x : ℚ)
  rw [sub_add_cancel, abs_sub_comm] at hsum
  have hlt : (n : ℚ) < |(roundEven x : ℚ)| + 1 := by linarith
  have hlt' : n < |roundEven x| + 1 := by exact_mod_cast hlt
  omega

/-! ## Scaling by the last place -/

theorem two_zpow_pos (e : ℤ) : (0 : ℚ) < 2 ^ e := zpow_pos (by norm_num) e

theorem two_zpow_add (e e' : ℤ) : (2 : ℚ) ^ (e + e') = 2 ^ e * 2 ^ e' :=
  zpow_add₀ (by norm_num) e e'

theorem two_zpow_le_iff {e e' : ℤ} : (2 : ℚ) ^ e ≤ 2 ^ e' ↔ e ≤ e' :=
  zpow_le_zpow_iff_right₀ (by norm_num)

theorem two_zpow_lt_iff {e e' : ℤ} : (2 : ℚ) ^ e < 2 ^ e' ↔ e < e' :=
  zpow_lt_zpow_iff_right₀ (by norm_num)

theorem abs_lt_two_zpow (q : ℚ) : |q| < 2 ^ (lastPlace q + 53) := by
  have hlog : |q| < ((2 : ℕ) : ℚ) ^ (Int.log 2 |q| + 1) := Int.lt_zpow_succ_log_self one_lt_two |q|
  refine lt_of_lt_of_le (by exact_mod_cast hlog) (two_zpow_le_iff.mpr ?_)
  unfold lastPlace
  omega

/-- Unless the number is tiny, its last place is 52 places below its first. -/
theorem two_zpow_lastPlace_le_of_log {q : ℚ} (hq : q ≠ 0) (hlog : -1022 ≤ Int.log 2 |q|) :
    2 ^ (lastPlace q + 52) ≤ |q| := by
  have hself : ((2 : ℕ) : ℚ) ^ Int.log 2 |q| ≤ |q| :=
    Int.zpow_log_le_self one_lt_two (abs_pos.mpr hq)
  have hplace : lastPlace q + 52 = Int.log 2 |q| := by
    unfold lastPlace
    omega
  rw [hplace]
  exact_mod_cast hself

theorem two_zpow_lastPlace_le {q : ℚ} (h : 2 ^ (-1022 : ℤ) ≤ |q|) :
    2 ^ (lastPlace q + 52) ≤ |q| := by
  have hpos : 0 < |q| := lt_of_lt_of_le (two_zpow_pos _) h
  refine two_zpow_lastPlace_le_of_log (abs_pos.mp hpos) ?_
  apply (Int.zpow_le_iff_le_log one_lt_two hpos).mp
  exact_mod_cast h

theorem neg_1074_le_lastPlace (q : ℚ) : -1074 ≤ lastPlace q := le_max_right _ _

/-! ## Rounding -/

theorem abs_fl_sub_le_lastPlace (q : ℚ) : |fl q - q| ≤ 2 ^ lastPlace q / 2 := by
  have hpos := two_zpow_pos (lastPlace q)
  have hscaled := abs_roundEven_sub_le (q / 2 ^ lastPlace q)
  have hfl : fl q - q =
      ((roundEven (q / 2 ^ lastPlace q) : ℚ) - q / 2 ^ lastPlace q) * 2 ^ lastPlace q := by
    rw [sub_mul, div_mul_cancel₀ _ hpos.ne', fl]
  rw [hfl, abs_mul, abs_of_pos hpos]
  have := mul_le_mul_of_nonneg_right hscaled hpos.le
  linarith

@[simp] theorem fl_zero : fl 0 = 0 := by
  simp [fl, roundEven]

/-- **The error of rounding**: at most half a unit in the last of 53 places. -/
theorem abs_fl_sub_le {q : ℚ} (h : Normal q) : |fl q - q| ≤ |q| / 2 ^ 53 := by
  obtain rfl | hlarge := h
  · simp
  · have hplace := two_zpow_lastPlace_le hlarge
    rw [two_zpow_add] at hplace
    have hfl := abs_fl_sub_le_lastPlace q
    norm_num at hplace ⊢
    linarith

/-- The error of rounding, from a bound on the number only. -/
theorem abs_fl_sub_le_of_lt {q : ℚ} {k : ℤ} (hk : -1021 ≤ k) (h : |q| < 2 ^ k) :
    |fl q - q| ≤ 2 ^ (k - 54) := by
  obtain rfl | hq := eq_or_ne q 0
  · simpa using (two_zpow_pos (k - 54)).le
  have hlog : Int.log 2 |q| < k := by
    apply (Int.lt_zpow_iff_log_lt one_lt_two (abs_pos.mpr hq)).mp
    exact_mod_cast h
  have hplace : lastPlace q ≤ k - 53 := by
    unfold lastPlace
    omega
  calc |fl q - q| ≤ 2 ^ lastPlace q / 2 := abs_fl_sub_le_lastPlace q
    _ ≤ 2 ^ (k - 53) / 2 := by linarith [two_zpow_le_iff.mpr hplace]
    _ = 2 ^ (k - 54) := by
        have hsplit := two_zpow_add (k - 54) 1
        rw [show k - 54 + 1 = k - 53 by ring, zpow_one] at hsplit
        linarith

theorem fl_nonneg {q : ℚ} (h : 0 ≤ q) : 0 ≤ fl q := by
  have hpos := two_zpow_pos (lastPlace q)
  have hfloor : 0 ≤ ⌊q / 2 ^ lastPlace q⌋ := Int.floor_nonneg.mpr (div_nonneg h hpos.le)
  have hround : 0 ≤ roundEven (q / 2 ^ lastPlace q) := by
    unfold roundEven
    split_ifs <;> omega
  exact mul_nonneg (by exact_mod_cast hround) hpos.le

theorem normal_of_le {p q : ℚ} (hp : 2 ^ (-1022 : ℤ) ≤ p) (hpq : p ≤ q) : Normal q :=
  .inr (hp.trans (hpq.trans (le_abs_self q)))

/-- A significand that is carried to the next power of two still fits, one place higher. -/
theorem representable_of_abs_le {m e : ℤ} (hm : |m| ≤ 2 ^ 53) (hlow : -1074 ≤ e)
    (h : |(m : ℚ) * 2 ^ e| < 2 ^ (1024 : ℤ)) (hhigh : 2 ^ 52 ≤ |m| ∨ e ≤ 970) :
    Representable (m * 2 ^ e) := by
  have hpos := two_zpow_pos e
  have hbound : 2 ^ 52 ≤ |m| → e ≤ 971 := by
    intro hm'
    have hle : (2 : ℚ) ^ (52 + e) ≤ |(m : ℚ) * 2 ^ e| := by
      rw [two_zpow_add, abs_mul, abs_of_pos hpos]
      refine mul_le_mul_of_nonneg_right ?_ hpos.le
      exact_mod_cast hm'
    have hlt := two_zpow_lt_iff.mp (lt_of_le_of_lt hle h)
    omega
  rcases hm.lt_or_eq with hlt | hcarry
  · exact ⟨m, e, hlt, hlow, by omega, rfl⟩
  · have he : e < 971 := by
      have habs : |(m : ℚ) * 2 ^ e| = 2 ^ (53 + e) := by
        rw [two_zpow_add, abs_mul, abs_of_pos hpos, ← Int.cast_abs, hcarry]
        norm_num
      rw [habs] at h
      have hlt := two_zpow_lt_iff.mp h
      omega
    obtain ⟨half, hhalf, hlt⟩ : ∃ half, m = half * 2 ∧ |half| < 2 ^ 53 := by
      rcases eq_or_eq_neg_of_abs_eq hcarry with hm | hm
      · exact ⟨2 ^ 52, by omega, by norm_num⟩
      · exact ⟨-2 ^ 52, by omega, by norm_num⟩
    refine ⟨half, e + 1, hlt, by omega, by omega, ?_⟩
    rw [hhalf, two_zpow_add]
    push_cast
    ring

/-- Integers of up to 53 bits. -/
theorem representable_intCast {n : ℤ} (hn : |n| < 2 ^ 53) : Representable n :=
  ⟨n, 0, hn, by norm_num, by norm_num, by simp⟩

/-- Rounding to an integer, halves up, stays within the format: a value beyond 52 bits is an
integer already. -/
theorem Representable.floor_add_half {q : ℚ} (hq : Representable q) :
    Representable ⌊q + 1 / 2⌋ := by
  obtain ⟨m, e, hm, hlow, hhigh, rfl⟩ := hq
  rcases le_or_gt 0 e with hint | hfrac
  · obtain ⟨k, rfl⟩ := Int.eq_ofNat_of_zero_le hint
    have hwhole : (m : ℚ) * 2 ^ (k : ℤ) = ((m * 2 ^ k : ℤ) : ℚ) := by
      push_cast
      rw [zpow_natCast]
    have hfloor : ⌊(1 / 2 : ℚ)⌋ = 0 := by norm_num
    rw [hwhole, Int.floor_intCast_add, hfloor, add_zero, ← hwhole]
    exact ⟨m, k, hm, hlow, hhigh, rfl⟩
  · have hpos := two_zpow_pos e
    have hhalf : (2 : ℚ) ^ e ≤ 1 / 2 := by
      have hle := two_zpow_le_iff.mpr (show e ≤ -1 by omega)
      norm_num at hle ⊢
      exact hle
    have hm' : |(m : ℚ)| < 2 ^ 53 := by exact_mod_cast hm
    have hsmall : |(m : ℚ) * 2 ^ e| < 2 ^ 52 := by
      rw [abs_mul, abs_of_pos hpos]
      nlinarith [abs_nonneg (m : ℚ)]
    obtain ⟨hlow, hhigh⟩ := abs_lt.mp hsmall
    refine representable_intCast (abs_lt.mpr ⟨?_, ?_⟩)
    · refine lt_of_lt_of_le (show (-2 ^ 53 : ℤ) < -2 ^ 52 by norm_num) (Int.le_floor.mpr ?_)
      push_cast
      linarith
    · refine Int.floor_lt.mpr ?_
      push_cast
      linarith

/-- Unless it overflows, rounding gives a value of the format. -/
theorem representable_fl {q : ℚ} (h : |fl q| < 2 ^ (1024 : ℤ)) : Representable (fl q) := by
  have hpos := two_zpow_pos (lastPlace q)
  have hscaled : |q / 2 ^ lastPlace q| < ((2 ^ 53 : ℤ) : ℚ) := by
    have hlt := abs_lt_two_zpow q
    rw [two_zpow_add, mul_comm] at hlt
    rw [abs_div, abs_of_pos hpos, div_lt_iff₀ hpos]
    exact_mod_cast hlt
  refine representable_of_abs_le (abs_roundEven_le hscaled) (neg_1074_le_lastPlace q) h ?_
  by_cases hlog : -1022 ≤ Int.log 2 |q|
  · by_cases hq : q = 0
    · right
      simp [hq, lastPlace]
    · left
      have hle := two_zpow_lastPlace_le_of_log hq hlog
      rw [two_zpow_add, mul_comm] at hle
      refine le_abs_roundEven ?_
      rw [abs_div, abs_of_pos hpos, le_div_iff₀ hpos]
      exact_mod_cast hle
  · right
    unfold lastPlace
    omega

end Binary64
