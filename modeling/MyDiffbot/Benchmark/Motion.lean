import MyDiffbot.Benchmark.Pose
import MyDiffbot.Planar.Motion
import Mathlib.Analysis.SpecialFunctions.Complex.Arg

/-!
# Poses as motions

With the functions of `math` exact, a pose names a motion of the plane, from its own frame to the
frame that it is a pose in. `compose` and `inverse` are product and inverse of motions, and both
`rel` take one motion relative to another. Two poses are compared with their yaws modulo a full
turn, and agree if and only if they name the same motion (`same_iff`): what the tools compute with
poses may be computed with motions instead.
-/

namespace MyDiffbot.Benchmark

open Real

/-! ## Exact functions -/

/-- The functions of `math` on the real numbers. -/
noncomputable def realTrig : Trig ℝ where
  pi := π
  cos := Real.cos
  sin := Real.sin
  atan2 y x := Complex.arg ⟨x, y⟩
  hypot x y := √(x ^ 2 + y ^ 2)

@[simp] theorem realTrig_pi : realTrig.pi = π := rfl

@[simp] theorem realTrig_cos (a : ℝ) : realTrig.cos a = cos a := rfl

@[simp] theorem realTrig_sin (a : ℝ) : realTrig.sin a = sin a := rfl

theorem hypot_eq_norm (x y : ℝ) : realTrig.hypot x y = ‖(⟨x, y⟩ : ℂ)‖ :=
  (Complex.norm_eq_sqrt_sq_add_sq ⟨x, y⟩).symm

theorem wrap_eq_toIcoMod (a : ℝ) : wrap realTrig a = toIcoMod two_pi_pos (-π) a := by
  rw [wrap, floorMod, toIcoMod, toIcoDiv_eq_floor, zsmul_eq_mul, sub_neg_eq_add, realTrig_pi]
  ring

theorem wrap_mem_Ico (a : ℝ) : wrap realTrig a ∈ Set.Ico (-π) π := by
  have hmem := toIcoMod_mem_Ico two_pi_pos (-π) a
  rwa [← wrap_eq_toIcoMod, two_mul, neg_add_cancel_left] at hmem

theorem wrap_modEq (a : ℝ) : wrap realTrig a ≡ a [PMOD 2 * π] := by
  rw [wrap_eq_toIcoMod, AddCommGroup.modEq_iff_zsmul]
  exact ⟨_, (self_sub_toIcoMod two_pi_pos (-π) a).symm⟩

/-- The evaluation wraps angles alike. -/
theorem Analyze.wrap_eq (a : ℝ) : Analyze.wrap realTrig a = wrap realTrig a := rfl

/-! ## What a pose means -/

namespace Pose

/-- Poses that agree, the yaws modulo a full turn. -/
structure Same (a b : Pose ℝ) : Prop where
  x : a.x = b.x
  y : a.y = b.y
  yaw : a.yaw ≡ b.yaw [PMOD 2 * π]

/-- The position as a point of the complex plane. -/
def position (a : Pose ℝ) : ℂ := ⟨a.x, a.y⟩

/-- From the frame of the pose to the frame it is a pose in. -/
noncomputable def motion (a : Pose ℝ) : ℂ ≃ᵃⁱ[ℝ] ℂ := Planar.motion a.position a.yaw

variable {a b : Pose ℝ}

theorem same_iff : a.Same b ↔ a.motion = b.motion := by
  rw [motion, motion, Planar.motion_eq_iff, Complex.ext_iff]
  exact ⟨fun ⟨hx, hy, hyaw⟩ ↦ ⟨⟨hx, hy⟩, hyaw⟩, fun ⟨⟨hx, hy⟩, hyaw⟩ ↦ ⟨hx, hy, hyaw⟩⟩

@[simp]
theorem motion_origin : motion ⟨0, 0, 0⟩ = 1 := Planar.motion_zero

end Pose

/-! ## What the functions mean -/

section meaning

variable (a b : Pose ℝ)

theorem position_compose : (compose realTrig a b).position = a.motion b.position := by
  rw [Pose.motion, Planar.motion_apply, Pose.position, Pose.position, Planar.exp_mul_mk]
  apply Complex.ext
  · exact add_sub_assoc a.x _ _
  · exact add_assoc a.y _ _

@[simp]
theorem motion_compose : (compose realTrig a b).motion = a.motion * b.motion := by
  conv_rhs => rw [Pose.motion, Pose.motion, Planar.motion_mul]
  rw [Pose.motion, Planar.motion_eq_iff]
  exact ⟨position_compose a b, wrap_modEq _⟩

@[simp]
theorem motion_inverse : (inverse realTrig a).motion = a.motion⁻¹ := by
  rw [Pose.motion, Pose.motion, Planar.motion_inv, Pose.position, Pose.position,
    Planar.exp_mul_mk, cos_neg, sin_neg]
  refine congrArg (Planar.motion · (-a.yaw)) (Complex.ext ?_ ?_)
  · simp only [inverse, realTrig_cos, realTrig_sin, Complex.neg_re]
    ring
  · simp only [inverse, realTrig_cos, realTrig_sin, Complex.neg_im]
    ring

@[simp]
theorem motion_rel : (rel realTrig a b).motion = a.motion⁻¹ * b.motion := by
  rw [rel, motion_compose, motion_inverse]

/-- The evaluation computes the same motion, without `compose` and `inverse`. -/
@[simp]
theorem motion_analyze_rel : (Analyze.rel realTrig a b).motion = a.motion⁻¹ * b.motion := by
  rw [Pose.motion, Pose.motion, Pose.motion, Planar.motion_inv_mul, Planar.motion_eq_iff]
  have hdifference : b.position - a.position = ⟨b.x - a.x, b.y - a.y⟩ := rfl
  rw [hdifference, Planar.exp_mul_mk, cos_neg, sin_neg]
  refine ⟨Complex.ext ?_ ?_, ?_⟩
  · simp only [Pose.position, Analyze.rel, realTrig_cos, realTrig_sin]
    ring
  · simp only [Pose.position, Analyze.rel, realTrig_cos, realTrig_sin]
  · rw [Analyze.rel, Analyze.wrap_eq]
    exact wrap_modEq _

/-- Points are taken to the other frame as the motion takes them. -/
theorem tfPts_eq_map (points : List (ℝ × ℝ)) :
    tfPts realTrig points a = points.map fun point ↦
      Complex.equivRealProd (a.motion (Complex.equivRealProd.symm point)) := by
  refine List.map_congr_left fun point _ ↦ ?_
  have hpoint : Complex.equivRealProd.symm point = ⟨point.1, point.2⟩ := rfl
  rw [hpoint, Pose.motion, Planar.motion_apply, Pose.position, Planar.exp_mul_mk]
  apply Prod.ext
  · simp only [realTrig_cos, realTrig_sin, Complex.equivRealProd_apply, Complex.add_re]
    ring
  · simp only [realTrig_cos, realTrig_sin, Complex.equivRealProd_apply, Complex.add_im]
    ring

/-- Two transforms in a row are the transform of the composed pose. -/
theorem tfPts_tfPts (points : List (ℝ × ℝ)) :
    tfPts realTrig (tfPts realTrig points b) a = tfPts realTrig points (compose realTrig a b) := by
  rw [tfPts_eq_map, tfPts_eq_map, tfPts_eq_map, List.map_map, motion_compose]
  refine List.map_congr_left fun point _ ↦ ?_
  rw [Function.comp_apply, Equiv.symm_apply_apply, AffineIsometryEquiv.coe_mul,
    Function.comp_apply]

end meaning

end MyDiffbot.Benchmark
