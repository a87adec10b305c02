import Mathlib.Algebra.Group.ModEq
import Mathlib.Algebra.Order.Group.Abs
import Mathlib.Algebra.Order.Group.Basic
import Mathlib.Data.List.Chain
import Mathlib.Data.List.Forall2

/-!
# Turns seen through an angle

An angle that is known modulo a full turn `p` does not tell how far something has turned. Readings
in a row do, if less than half a turn lies between two of them: each step is then the only
representative of its reading that is that short. Two ways to use this are shown to measure the true
turn: adding up the wrapped steps (`turned_eq`), and changing the readings by full turns until no
step is longer than half a turn (`getLastD_unwrapped`). `h` is half a turn.
-/

namespace MyDiffbot.Planar

open AddCommGroup

variable {α : Type*} [AddCommGroup α] [LinearOrder α] [IsOrderedAddMonoid α] {p h : α}

/-- Two short turns that differ by full turns are the same. -/
theorem eq_of_modEq {x y : α} (hhalf : h + h ≤ p) (hmod : x ≡ y [PMOD p]) (hx : |x| ≤ h)
    (hy : |y| < h) : x = y := by
  obtain ⟨turns, hturns⟩ := modEq_iff_zsmul.mp hmod
  obtain ⟨hxl, hxr⟩ := abs_le.mp hx
  obtain ⟨hyl, hyr⟩ := abs_lt.mp hy
  have hpos : 0 < p := by
    have hh : 0 < h := (abs_nonneg y).trans_lt hy
    exact (add_pos hh hh).trans_le hhalf
  have hupper : turns • p < (1 : ℤ) • p := by
    rw [hturns, one_zsmul]
    calc
      y - x ≤ y + h := by rw [sub_eq_add_neg]; exact add_le_add_right (neg_le.mp hxl) y
      _ < h + h := add_lt_add_left hyr h
      _ ≤ p := hhalf
  have hlower : (-1 : ℤ) • p < turns • p := by
    rw [hturns, neg_one_zsmul]
    calc
      -p ≤ -(h + h) := neg_le_neg hhalf
      _ = -h - h := by rw [neg_add, sub_eq_add_neg]
      _ < y - h := sub_lt_sub_right hyl h
      _ ≤ y - x := sub_le_sub_left hxr y
  have hzero : turns = 0 := by
    have hlt := (zsmul_lt_zsmul_iff_left hpos).mp hupper
    have hgt := (zsmul_lt_zsmul_iff_left hpos).mp hlower
    omega
  rw [hzero, zero_zsmul] at hturns
  exact (sub_eq_zero.mp hturns.symm).symm

/-- The readings show the angles, each up to full turns. -/
def Shows (p : α) (readings angles : List α) : Prop :=
  List.Forall₂ (fun reading angle ↦ reading ≡ angle [PMOD p]) readings angles

omit [LinearOrder α] [IsOrderedAddMonoid α] in
theorem Shows.trans {first second third : List α} (h : Shows p first second)
    (h' : Shows p second third) : Shows p first third := by
  induction h generalizing third with
  | nil =>
    cases h'
    exact .nil
  | cons hfirst _ ih =>
    cases h' with
    | cons hsecond hrest => exact .cons (hfirst.trans hsecond) (ih hrest)

/-- From the start on, less than half a turn lies between an angle and the next. -/
def Gradual (h start : α) (angles : List α) : Prop :=
  (start :: angles).IsChain fun angle next ↦ |next - angle| < h

/-- The wrapped steps from one reading to the next, added up. -/
def turned (wrap : α → α) : α → List α → α
  | _, [] => 0
  | last, reading :: readings => wrap (reading - last) + turned wrap reading readings

section turned

variable {start last : α} {readings angles : List α}

omit [IsOrderedAddMonoid α] in
theorem Gradual.cons {angle : α} (hgradual : Gradual h start (angle :: angles)) :
    |angle - start| < h ∧ Gradual h angle angles := List.isChain_cons_cons.mp hgradual

omit [LinearOrder α] [IsOrderedAddMonoid α] in
theorem turned_append_singleton (wrap : α → α) (last reading : α) (readings : List α) :
    turned wrap last (readings ++ [reading]) =
      turned wrap last readings + wrap (reading - readings.getLastD last) := by
  induction readings generalizing last with
  | nil => exact add_comm _ _
  | cons first readings ih =>
    rw [List.cons_append, turned, turned, ih, List.getLastD_cons, add_assoc]

/-- Wrapped steps add up to the true turn. -/
theorem turned_eq {wrap : α → α} (hhalf : h + h ≤ p) (hwrap : ∀ x, wrap x ≡ x [PMOD p])
    (hshort : ∀ x, |wrap x| ≤ h) (hlast : last ≡ start [PMOD p])
    (hshows : Shows p readings angles) (hgradual : Gradual h start angles) :
    turned wrap last readings = angles.getLastD start - start := by
  induction hshows generalizing start last with
  | nil => exact (sub_self start).symm
  | @cons reading angle readings angles hreading _ ih =>
    obtain ⟨hstep, hrest⟩ := hgradual.cons
    have hturn : wrap (reading - last) = angle - start :=
      eq_of_modEq hhalf ((hwrap _).trans (hreading.sub hlast)) (hshort _) hstep
    rw [turned, hturn, ih hreading hrest, List.getLastD_cons, add_comm, sub_add_sub_cancel]

/-- Readings that were changed by full turns until no step is longer than half a turn measure the
true turn. -/
theorem getLastD_unwrapped (hhalf : h + h ≤ p) (hlast : last ≡ start [PMOD p])
    (hshows : Shows p readings angles) (hgradual : Gradual h start angles)
    (hshort : (last :: readings).IsChain fun reading next ↦ |next - reading| ≤ h) :
    readings.getLastD last - last = angles.getLastD start - start := by
  induction hshows generalizing start last with
  | nil => exact (sub_self last).trans (sub_self start).symm
  | @cons reading angle readings angles hreading _ ih =>
    obtain ⟨hstep, hrest⟩ := hgradual.cons
    obtain ⟨hshortStep, hshortRest⟩ := List.isChain_cons_cons.mp hshort
    have hturn : reading - last = angle - start :=
      eq_of_modEq hhalf (hreading.sub hlast) hshortStep hstep
    have hlater := ih hreading hrest hshortRest
    rw [List.getLastD_cons, List.getLastD_cons]
    calc
      readings.getLastD reading - last = readings.getLastD reading - reading + (reading - last) :=
        (sub_add_sub_cancel _ _ _).symm
      _ = angles.getLastD angle - angle + (angle - start) := by rw [hlater, hturn]
      _ = angles.getLastD angle - start := sub_add_sub_cancel _ _ _

end turned

end MyDiffbot.Planar
