import Mathlib.Algebra.Order.Field.Basic
import Mathlib.Algebra.Order.Group.MinMax
import Mathlib.Algebra.Order.Ring.Abs
import Mathlib.Tactic.GCongr
import Mathlib.Tactic.Linarith
import Mathlib.Tactic.Ring

/-!
# Stopping before a wall

A vehicle that is commanded a speed towards a wall is never faster than the larger of this and what
it was, its level. If it was faster, then it brakes, and a level squared over `d`, twice the
deceleration, is the way that it takes to stand. The room is what this leaves of the gap. While a
command stands, it shrinks by what the command covers and no more, since the braking has been paid
for (`room_follows`). A gap that was seen some time ago bounds the room by the fastest level since
then (`room_of_seen`).
-/

namespace MyDiffbot.Numeric

/-- Where a vehicle is before a wall, and how fast it goes towards it. -/
structure Situation (K : Type*) where
  t : K
  gap : K
  speed : K

variable {K : Type*} [Field K] [LinearOrder K]

def Situation.level (v : K) (s : Situation K) : K := max s.speed v

/-- What is left of the gap when the vehicle has come to a stand. -/
def Situation.room (d v : K) (s : Situation K) : K := s.gap - s.level v ^ 2 / d

/-- From one situation to another under a command. -/
structure Follows (d v : K) (s s' : Situation K) : Prop where
  later : s.t ≤ s'.t
  level : s'.level v ≤ s.level v
  way : s.gap - s'.gap ≤ s.level v * (s'.t - s.t)
  braking : s.gap - s'.gap ≤ v * (s'.t - s.t) + (s.level v ^ 2 - s'.level v ^ 2) / d

instance (d v : K) (s s' : Situation K) : Decidable (Follows d v s s') :=
  decidable_of_iff (s.t ≤ s'.t ∧ s'.level v ≤ s.level v ∧
      s.gap - s'.gap ≤ s.level v * (s'.t - s.t) ∧
      s.gap - s'.gap ≤ v * (s'.t - s.t) + (s.level v ^ 2 - s'.level v ^ 2) / d)
    ⟨fun h ↦ ⟨h.1, h.2.1, h.2.2.1, h.2.2.2⟩, fun h ↦ ⟨h.later, h.level, h.way, h.braking⟩⟩

variable {d v peak gap time : K} {s s' : Situation K}

namespace Situation

theorem level_nonneg (hv : 0 ≤ v) : 0 ≤ s.level v := hv.trans (le_max_right _ _)

variable [IsStrictOrderedRing K]

/-- The room is larger under a smaller command. -/
theorem room_anti {lower : K} (hd : 0 < d) (hlower : 0 ≤ lower) (h : lower ≤ v) :
    s.room d v ≤ s.room d lower := by
  have hlevel : s.level lower ≤ s.level v := max_le_max le_rfl h
  have hnonneg : 0 ≤ s.level lower := level_nonneg hlower
  unfold room
  gcongr

end Situation

open Situation

variable [IsStrictOrderedRing K]

theorem room_follows (h : Follows d v s s') :
    s.room d v - v * (s'.t - s.t) ≤ s'.room d v := by
  have hbraking := h.braking
  unfold room
  rw [sub_div] at hbraking
  linarith

/-- The vehicle has not been faster than `peak` since it was seen at a distance `gap`. -/
structure Seen (gap time peak v : K) (s : Situation K) : Prop where
  past : time ≤ s.t
  slower : s.level v ≤ peak
  gap : gap - peak * (s.t - time) ≤ s.gap

theorem Seen.follows (hseen : Seen gap time peak v s) (h : Follows d v s s') :
    Seen gap time peak v s' where
  past := hseen.past.trans h.later
  slower := h.level.trans hseen.slower
  gap := by
    have hway : s.level v * (s'.t - s.t) ≤ peak * (s'.t - s.t) :=
      mul_le_mul_of_nonneg_right hseen.slower (sub_nonneg.mpr h.later)
    have hgap := hseen.gap
    have hcovered := h.way
    linarith

theorem Seen.mono {peak' : K} (hseen : Seen gap time peak v s) (h : peak ≤ peak') :
    Seen gap time peak' v s where
  past := hseen.past
  slower := hseen.slower.trans h
  gap := by
    have hmore : peak * (s.t - time) ≤ peak' * (s.t - time) :=
      mul_le_mul_of_nonneg_right h (sub_nonneg.mpr hseen.past)
    linarith [hseen.gap]

omit [IsStrictOrderedRing K] in
theorem Seen.command {next : K} (hseen : Seen gap time peak v s) (h : next ≤ peak) :
    Seen gap time peak next s where
  past := hseen.past
  slower := max_le ((le_max_left _ _).trans hseen.slower) h
  gap := hseen.gap

/-- The room of a vehicle that was seen at most `age` ago. -/
theorem room_of_seen {age : K} (hd : 0 < d) (hv : 0 ≤ v) (hseen : Seen gap time peak v s)
    (hage : s.t - time ≤ age) : gap - peak * age - peak ^ 2 / d ≤ s.room d v := by
  have hlevel : 0 ≤ s.level v := level_nonneg hv
  have hslower := hseen.slower
  have hcovered : peak * (s.t - time) ≤ peak * age :=
    mul_le_mul_of_nonneg_left hage (hlevel.trans hslower)
  have hstop : s.level v ^ 2 / d ≤ peak ^ 2 / d := by gcongr
  have hgap := hseen.gap
  unfold room
  linarith

end MyDiffbot.Numeric
