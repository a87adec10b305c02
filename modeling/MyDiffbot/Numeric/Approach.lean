import Mathlib.Algebra.Order.Field.Basic
import Mathlib.Algebra.Order.Group.MinMax
import Mathlib.Tactic.Linarith
import Mathlib.Tactic.Ring

/-!
# Approaching a target

A speed in proportion to what is left, but not below a lowest one, so that the rest is not crept
through, and not above a highest one. If it is held for a short time, then it takes away from what
is left at least what the lowest speed covers in that time, or reaches the tolerance, and it never
carries past the target by as much as the tolerance (`abs_sub_approach`). How short the time has
to be is told by the lowest speed and the gain alone.
-/

namespace MyDiffbot.Numeric

variable {K : Type*} [Field K] [LinearOrder K]

/-- The magnitude of `x` with the sign of `y`. -/
def copysign (x y : K) : K := if y < 0 then -|x| else |x|

/-- The speed for what is left. -/
def approach (lowest highest gain left : K) : K :=
  copysign (min highest (max lowest (gain * |left|))) left

variable [IsStrictOrderedRing K] {lowest highest gain left time tol : K}

theorem abs_copysign (x y : K) : |copysign x y| = |x| := by
  unfold copysign
  split
  · rw [abs_neg, abs_abs]
  · exact abs_abs x

/-- Moving against the sign of `y` takes away from its magnitude. -/
theorem abs_sub_copysign (x y time : K) : |y - copysign x y * time| = |(|y| - |x| * time)| := by
  unfold copysign
  split
  · rename_i hneg
    rw [abs_of_neg hneg, ← abs_neg]
    congr 1
    ring
  · rename_i hpos
    rw [abs_of_nonneg (not_lt.mp hpos)]

theorem abs_approach (hlowest : 0 ≤ lowest) (hhighest : 0 ≤ highest) :
    |approach lowest highest gain left| = min highest (max lowest (gain * |left|)) := by
  rw [approach, abs_copysign, abs_of_nonneg (le_min hhighest (hlowest.trans (le_max_left _ _)))]

theorem abs_approach_le (hlowest : 0 ≤ lowest) (hhighest : 0 ≤ highest) :
    |approach lowest highest gain left| ≤ highest := by
  rw [abs_approach hlowest hhighest]
  exact min_le_left _ _

/-- What is left after the speed was held for a time. -/
theorem abs_sub_approach (hlowest : 0 ≤ lowest) (hhighest : 0 ≤ highest) (htime : 0 ≤ time)
    (hgain : gain * time ≤ 1) (htol : lowest * time < 2 * tol) (hleft : tol ≤ |left|) :
    |left - approach lowest highest gain left * time| ≤ |left| - min lowest highest * time ∨
      |left - approach lowest highest gain left * time| < tol := by
  have hspeed : |approach lowest highest gain left| = _ := abs_approach hlowest hhighest
  rw [approach, abs_copysign] at hspeed
  rw [approach, abs_sub_copysign, hspeed]
  set speed := min highest (max lowest (gain * |left|)) with hdef
  have hleast : min lowest highest ≤ speed :=
    le_min (min_le_right _ _) ((min_le_left _ _).trans (le_max_left _ _))
  have hcovered := mul_le_mul_of_nonneg_right hleast htime
  by_cases hpast : speed * time ≤ |left|
  · rw [abs_of_nonneg (sub_nonneg.mpr hpast)]
    exact .inl (by linarith)
  · -- Only the lowest speed can carry past the target.
    have hslow : speed ≤ lowest := by
      by_contra hfast
      have hgained : speed ≤ gain * |left| := by
        rcases le_max_iff.mp (min_le_right highest (max lowest (gain * |left|))) with h | h
        · exact absurd h hfast
        · exact h
      have hreach := mul_le_mul_of_nonneg_right hgained htime
      have hpart := mul_le_mul_of_nonneg_right hgain (abs_nonneg left)
      linarith
    have hcover := mul_le_mul_of_nonneg_right hslow htime
    rw [abs_of_neg (sub_neg.mpr (not_le.mp hpast))]
    exact .inr (by linarith)

/-- Whatever is left, holding the speed for a short time adds at most what the lowest speed covers. -/
theorem abs_sub_approach_le_max (hlowest : 0 ≤ lowest) (hhighest : 0 ≤ highest) (htime : 0 ≤ time)
    (hgain : gain * time ≤ 1) :
    |left - approach lowest highest gain left * time| ≤ max |left| (lowest * time) := by
  have hspeed : |approach lowest highest gain left| = _ := abs_approach hlowest hhighest
  rw [approach, abs_copysign] at hspeed
  rw [approach, abs_sub_copysign, hspeed]
  set speed := min highest (max lowest (gain * |left|)) with hdef
  have hpositive : 0 ≤ speed * time :=
    mul_nonneg (le_min hhighest (hlowest.trans (le_max_left _ _))) htime
  have hcover : speed * time ≤ max (lowest * time) |left| := by
    calc
      speed * time ≤ max lowest (gain * |left|) * time :=
        mul_le_mul_of_nonneg_right (min_le_right _ _) htime
      _ = max (lowest * time) (gain * |left| * time) := max_mul_of_nonneg _ _ htime
      _ ≤ max (lowest * time) |left| := by
        refine max_le_max le_rfl ?_
        have hpart := mul_le_mul_of_nonneg_right hgain (abs_nonneg left)
        linarith
  refine abs_le.mpr ⟨?_, (sub_le_self _ hpositive).trans (le_max_left _ _)⟩
  rw [max_comm] at hcover
  have hnonneg := abs_nonneg left
  linarith

end MyDiffbot.Numeric
