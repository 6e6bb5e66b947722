import Mathlib.Algebra.Order.Ring.Int
import Mathlib.Tactic.Linarith

/-! Exponential smoothing in integers.

A sum `Y` stands for `D` values, whose mean `Y / D` is rounded down. A new value goes into it in the
place of the mean. Then the new mean is between the old one and the value (`mean_smooth`), whatever
rounding has done. To change the number of values by a factor leaves the mean alone (`mean_mul`,
`mean_ediv`). -/
namespace Stm32F4.Lib

/-- The sum with `x` in the place of the mean. -/
def smooth (D Y x : Int) : Int := Y + (x - Y / D)

variable {D Y x lo hi : Int}

/-- Between two bounds of the mean and the value lies the new mean. -/
theorem mean_smooth (hD : 0 < D) (hlo : lo ≤ Y / D) (hhi : Y / D ≤ hi) (hxlo : lo ≤ x)
    (hxhi : x ≤ hi) :
    lo ≤ smooth D Y x / D ∧ smooth D Y x / D ≤ hi := by
  have hY : D * (Y / D) + Y % D = Y := Int.mul_ediv_add_emod Y D
  have hr : 0 ≤ Y % D := Int.emod_nonneg Y (Int.ne_of_gt hD)
  have hrD : Y % D < D := Int.emod_lt_of_pos Y hD
  -- The other `D - 1` values are within the bounds as the mean is.
  have hlow : 0 ≤ (D - 1) * (Y / D - lo) := Int.mul_nonneg (by omega) (by omega)
  have hupp : 0 ≤ (D - 1) * (hi - Y / D) := Int.mul_nonneg (by omega) (by omega)
  constructor
  · apply (Int.le_ediv_iff_mul_le hD).mpr
    simp only [smooth]
    nlinarith only [hY, hr, hlow, hxlo]
  · apply Int.lt_add_one_iff.mp
    apply (Int.ediv_lt_iff_lt_mul hD).mpr
    simp only [smooth]
    nlinarith only [hY, hrD, hupp, hxhi]

theorem mean_mul {k : Int} (hk : 0 < k) : Y * k / (D * k) = Y / D :=
  Int.mul_ediv_mul_of_pos_left Y D hk

theorem mean_ediv {k : Int} (hk : 0 < k) : Y / k / D = Y / (D * k) := by
  rw [Int.ediv_ediv_of_nonneg (Int.le_of_lt hk), Int.mul_comm]

/-- A sum is near its mean. -/
theorem sum_bounds (hD : 0 < D) : Y / D * D ≤ Y ∧ Y < (Y / D + 1) * D := by
  constructor
  · exact Int.ediv_mul_le Y (Int.ne_of_gt hD)
  · exact Int.lt_ediv_add_one_mul_self Y hD

end Stm32F4.Lib
