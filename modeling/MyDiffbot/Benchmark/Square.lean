import MyDiffbot.Benchmark.Driving

/-!
# The square of UMBmark

`t_umb` drives four sides of a square on the odometry of the EKF and turns by a quarter at each
corner. In odometry the square closes: what is left is the tolerance of the sides, what they miss
across their lines, and what the base was displaced at the corners (`umb_closes`). So what the ground
truth sees of a larger gap is an error of the odometry.
-/

namespace MyDiffbot.Benchmark

open Real Incremental Numeric

/-! ## The test -/

/-- A side as it is driven: the pose that `drive` starts from, its deadline, and what it finds. -/
structure Side (K : Type*) where
  start : Pose K
  tEnd : K
  samples : List (Sample K)

section test

variable {K : Type*} [Field K] [LinearOrder K] [FloorRing K] (trig : Trig K)

/-- The turn at a corner. -/
def umbTurn (ccw : Bool) : K := if ccw then trig.pi / 2.0 else -trig.pi / 2.0

/-- The heading of a side, given the yaw at the start of the run. -/
def umbHeading (ccw : Bool) (th0 : K) (k : Fin 4) : K := th0 + (k : ℕ) * umbTurn trig ccw

/-- How a side of a run is driven. -/
def umbDrive (ccw : Bool) (th0 side v : K) (sides : Fin 4 → Side K) (k : Fin 4) :
    Loop.Outcome Unit (K × K) Ending :=
  (drive trig (sides k).start (umbHeading trig ccw th0 k) side v (sides k).tEnd).run ()
    (sides k).samples

/-- The turn behind a side. -/
def umbRotate (ccw : Bool) (th0 w tol tEnd : K) (samples : List (Sample K)) (k : Fin 4) :
    Loop.Outcome Unit (K × K) Ending :=
  (rotateTo trig (wrap trig (umbHeading trig ccw th0 k + umbTurn trig ccw)) w tol tEnd).run ()
    samples

end test

/-! ## The way -/

section way

variable {ccw : Bool} {th0 side v : ℝ} {sides : Fin 4 → Side ℝ}

theorem two_mul_umbTurn (ccw : Bool) :
    2 * umbTurn realTrig ccw = π ∨ 2 * umbTurn realTrig ccw = -π := by
  have hhalf : (2.0 : ℝ) = 2 := by norm_num
  cases ccw with
  | true =>
    left
    rw [umbTurn, if_pos rfl, hhalf]
    exact mul_div_cancel₀ π two_ne_zero
  | false =>
    right
    rw [umbTurn, if_neg Bool.false_ne_true, hhalf]
    exact mul_div_cancel₀ (-π) two_ne_zero

theorem exp_umbTurn (ccw : Bool) : (Circle.exp (umbTurn realTrig ccw) : ℂ) ^ 2 = -1 := by
  rw [sq, ← Circle.coe_mul, ← Circle.exp_add, ← two_mul, Circle.coe_exp]
  rcases two_mul_umbTurn ccw with h | h
  · rw [h, Complex.exp_pi_mul_I]
  · rw [h, Complex.ofReal_neg, neg_mul, Complex.exp_neg, Complex.exp_pi_mul_I, inv_neg_one]

theorem sum_exp_umbHeading (ccw : Bool) (th0 : ℝ) :
    ∑ k, (Circle.exp (umbHeading realTrig ccw th0 k) : ℂ) = 0 := by
  have hzero := @Planar.sum_quarter_turns th0 (umbTurn realTrig ccw) (exp_umbTurn ccw)
  rw [Fin.sum_univ_four, ← hzero]
  simp [umbHeading]

/-- Behind the last side the base is turned to the yaw that the run began with. -/
theorem umbHeading_last (ccw : Bool) (th0 : ℝ) :
    umbHeading realTrig ccw th0 3 + umbTurn realTrig ccw ≡ th0 [PMOD 2 * π] := by
  have hfour : umbHeading realTrig ccw th0 3 + umbTurn realTrig ccw =
      th0 + 2 * (2 * umbTurn realTrig ccw) := by
    have hthree : ((3 : Fin 4) : ℕ) = 3 := rfl
    rw [umbHeading, hthree]
    push_cast
    ring
  rw [hfour]
  refine AddCommGroup.modEq_iff_zsmul.mpr ?_
  rcases two_mul_umbTurn ccw with h | h
  · refine ⟨-1, ?_⟩
    rw [h, neg_one_zsmul]
    ring
  · refine ⟨1, ?_⟩
    rw [h, one_zsmul]
    ring

/-- The square closes in odometry, whatever the base does, but for the tolerance of the sides, what
is left across them, and what the base was displaced between the sides; and a last turn ends near the
yaw of the start. -/
theorem umb_closes (hreached : ∀ k,
      (umbDrive realTrig ccw th0 side v sides k).result = some .reached) :
    ∃ ends : Fin 4 → Sample ℝ, (∀ k, (sides k).samples[
        (umbDrive realTrig ccw th0 side v sides k).acts.length]? = some (ends k)) ∧
      dist (ends 3).ekf.position (sides 0).start.position ≤
        ∑ k, (0.002 + |(alongAcross realTrig (sides k).start (umbHeading realTrig ccw th0 k)
          (ends k).ekf).2|) +
        ∑ k : Fin 3, dist (sides k.succ).start.position (ends k.castSucc).ekf.position ∧
      ∀ w tol tEnd samples,
        (umbRotate realTrig ccw th0 w tol tEnd samples 3).result = some .reached →
        ∃ s, samples[(umbRotate realTrig ccw th0 w tol tEnd samples 3).acts.length]? = some s ∧
          |wrap realTrig (th0 - s.ekf.yaw)| < tol := by
  choose used ends rest hsplit hlength offs hposition hsmall using fun k ↦ drive_ends (hreached k)
  refine ⟨ends, fun k ↦ Loop.getElem?_of_split (hsplit k) (hlength k), ?_,
    fun w tol tEnd samples hturned ↦ ?_⟩
  · have hway := Planar.way_sub (side : ℂ) hposition (sum_exp_umbHeading ccw th0)
    have hlast : (3 : Fin 4) = Fin.last 3 := rfl
    rw [dist_eq_norm, hlast, hway]
    refine (norm_add_le _ _).trans (add_le_add ?_ ?_)
    · refine (norm_sum_le _ _).trans (Finset.sum_le_sum fun k _ ↦ ?_)
      rw [norm_mul, Circle.norm_coe, one_mul]
      exact hsmall k
    · refine (norm_sum_le _ _).trans (Finset.sum_le_sum fun k _ ↦ ?_)
      rw [dist_eq_norm]
  · obtain ⟨used, s, rest, hsplit, hlength, hnear⟩ := rotateTo_reached hturned
    have hleft : th0 - s.ekf.yaw ≡
        wrap realTrig (umbHeading realTrig ccw th0 3 + umbTurn realTrig ccw) - s.ekf.yaw
          [PMOD 2 * π] :=
      ((wrap_modEq _).trans (umbHeading_last ccw th0)).symm.sub_right _
    refine ⟨s, Loop.getElem?_of_split hsplit hlength, ?_⟩
    rw [wrap_congr hleft]
    exact hnear

end way

/-- The corners of a square, one side after another. -/
noncomputable def corner : ℕ → Pose ℝ
  | 0 => ⟨0, 0, 0⟩
  | k + 1 =>
    let th := 0 + k * umbTurn realTrig true
    ⟨(corner k).x + 0.6 * cos th, (corner k).y + 0.6 * sin th, th + umbTurn realTrig true⟩

/-- Each side as it is found at its end. -/
noncomputable def squareSides (k : Fin 4) : Side ℝ :=
  ⟨corner k, 15, [⟨0, corner (k + 1), false⟩]⟩

theorem umb_closes_square :
    ∃ ends : Fin 4 → Sample ℝ, (∀ k, (squareSides k).samples[
        (umbDrive realTrig true 0 0.6 0.2 squareSides k).acts.length]? = some (ends k)) ∧
      dist (ends 3).ekf.position (squareSides 0).start.position ≤
        ∑ k, (0.002 + |(alongAcross realTrig (squareSides k).start (umbHeading realTrig true 0 k)
          (ends k).ekf).2|) +
        ∑ k : Fin 3, dist (squareSides k.succ).start.position (ends k.castSucc).ekf.position := by
  have hreached : ∀ k, (umbDrive realTrig true 0 0.6 0.2 squareSides k).result = some .reached := by
    intro k
    have halong : (alongAcross realTrig (corner k) (umbHeading realTrig true 0 k)
        (corner (k + 1))).1 = 0.6 := by
      simp only [alongAcross, corner, umbHeading, realTrig_cos, realTrig_sin]
      linear_combination 0.6 * sin_sq_add_cos_sq (0 + (k : ℕ) * umbTurn realTrig true)
    have hstep : (drive realTrig (corner k) (umbHeading realTrig true 0 k) 0.6 0.2 15).step ()
        ⟨0, corner (k + 1), false⟩ = .error .reached := by
      dsimp only [drive]
      rw [halong, if_neg (by norm_num), if_pos (by norm_num)]
    rw [umbDrive, squareSides, Loop.run_of_error hstep]
  obtain ⟨ends, hmem, hclosed, -⟩ := umb_closes hreached
  exact ⟨ends, hmem, hclosed⟩

end MyDiffbot.Benchmark
