import Mathlib.Algebra.Order.ToIntervalMod
import Mathlib.Analysis.CStarAlgebra.Classes
import Mathlib.Analysis.Complex.Isometry
import Mathlib.Analysis.InnerProductSpace.Basic
import Mathlib.Analysis.Normed.Affine.Isometry
import Mathlib.Analysis.SpecialFunctions.Complex.Circle

/-!
# Rigid motions of the plane

A turn about the origin followed by a shift, as an affine isometry of the complex plane. Products,
inverses and equality of such motions are given in terms of the shifts and the angles; angles count
modulo a full turn. Whatever is computed with shifts and angles is thereby reduced to the group of
isometries.
-/

namespace MyDiffbot.Planar

open Complex Real

/-- The motion that turns by the angle `θ` and then shifts by `p`. -/
noncomputable def motion (p : ℂ) (θ : ℝ) : ℂ ≃ᵃⁱ[ℝ] ℂ :=
  (rotation (Circle.exp θ)).toAffineIsometryEquiv.trans (AffineIsometryEquiv.constVAdd ℝ ℂ p)

variable {p q z : ℂ} {θ φ : ℝ}

@[simp]
theorem motion_apply : motion p θ z = p + Circle.exp θ * z := rfl

/-- A point turned by an angle. -/
theorem exp_mul_mk (θ x y : ℝ) :
    (Circle.exp θ : ℂ) * ⟨x, y⟩ =
      ⟨Real.cos θ * x - Real.sin θ * y, Real.sin θ * x + Real.cos θ * y⟩ := by
  rw [Circle.coe_exp]
  apply Complex.ext
  · rw [mul_re, exp_ofReal_mul_I_re, exp_ofReal_mul_I_im]
  · rw [mul_im, exp_ofReal_mul_I_re, exp_ofReal_mul_I_im, add_comm]

theorem exp_eq_iff_modEq : Circle.exp θ = Circle.exp φ ↔ θ ≡ φ [PMOD 2 * π] := by
  rw [Circle.exp_eq_exp, AddCommGroup.modEq_comm, AddCommGroup.modEq_iff_zsmul]
  refine exists_congr fun m ↦ ?_
  rw [zsmul_eq_mul, eq_sub_iff_add_eq', eq_comm]

/-- Four quarter turns to one side go through opposite directions. -/
theorem sum_quarter_turns (hquarter : (Circle.exp φ : ℂ) ^ 2 = -1) :
    (Circle.exp θ + Circle.exp (θ + φ) + Circle.exp (θ + 2 * φ) + Circle.exp (θ + 3 * φ) : ℂ) =
      0 := by
  have hsecond : (Circle.exp (2 * φ) : ℂ) = -1 := by
    rw [two_mul, Circle.exp_add, Circle.coe_mul, ← sq, hquarter]
  have hthird : (Circle.exp (3 * φ) : ℂ) = -Circle.exp φ := by
    have hsplit : 3 * φ = 2 * φ + φ := by ring
    rw [hsplit, Circle.exp_add, Circle.coe_mul, hsecond, neg_one_mul]
  rw [Circle.exp_add, Circle.exp_add, Circle.exp_add, Circle.coe_mul, Circle.coe_mul,
    Circle.coe_mul, hsecond, hthird]
  ring

/-- Where a way ends whose legs go one length under headings that cancel out: what is left is the
error of each leg, and the gaps between a leg and the next. -/
theorem way_sub {n : ℕ} {starts ends offs headings : Fin (n + 1) → ℂ} (length : ℂ)
    (hends : ∀ k, ends k = starts k + headings k * (length + offs k))
    (hclosed : ∑ k, headings k = 0) :
    ends (Fin.last n) - starts 0 =
      ∑ k, headings k * offs k + ∑ k : Fin n, (starts k.succ - ends k.castSucc) := by
  have hlegs : ∑ k, (ends k - starts k) = ∑ k, headings k * offs k := by
    simp only [hends, add_sub_cancel_left, mul_add, Finset.sum_add_distrib, ← Finset.sum_mul,
      hclosed, zero_mul, zero_add]
  rw [← hlegs, Finset.sum_sub_distrib, Finset.sum_sub_distrib, Fin.sum_univ_castSucc ends,
    Fin.sum_univ_succ starts]
  ring

/-- Two motions are the same if their shifts are and their angles differ by full turns. -/
theorem motion_eq_iff : motion p θ = motion q φ ↔ p = q ∧ θ ≡ φ [PMOD 2 * π] := by
  rw [← exp_eq_iff_modEq]
  constructor
  · intro h
    have happly : ∀ z, p + Circle.exp θ * z = q + Circle.exp φ * z := fun z ↦
      DFunLike.congr_fun h z
    have hshift : p = q := by simpa only [mul_zero, add_zero] using happly 0
    have hturn := happly 1
    rw [hshift, mul_one, mul_one, add_right_inj] at hturn
    exact ⟨hshift, Circle.ext hturn⟩
  · rintro ⟨rfl, hturn⟩
    rw [motion, motion, hturn]

theorem motion_zero : motion 0 0 = 1 := by
  ext z
  rw [motion_apply, Circle.exp_zero, Circle.coe_one, zero_add, one_mul]
  rfl

theorem motion_mul : motion p θ * motion q φ = motion (p + Circle.exp θ * q) (θ + φ) := by
  ext z
  change p + Circle.exp θ * (q + Circle.exp φ * z) = _
  rw [motion_apply, Circle.exp_add, Circle.coe_mul]
  ring

theorem motion_inv : (motion p θ)⁻¹ = motion (-(Circle.exp (-θ) * p)) (-θ) := by
  symm
  apply eq_inv_of_mul_eq_one_left
  rw [motion_mul, neg_add_cancel, neg_add_cancel, motion_zero]

/-- One motion relative to another, without composing any. -/
theorem motion_inv_mul :
    (motion p θ)⁻¹ * motion q φ = motion (Circle.exp (-θ) * (q - p)) (φ - θ) := by
  rw [motion_inv, motion_mul, neg_add_eq_sub, neg_add_eq_sub, mul_sub]

end MyDiffbot.Planar
